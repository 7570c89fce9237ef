import LedgerWatch.Proofs.Acceptance.World
import LedgerWatch.Proofs.Notifier

/-!
# Those who wait are known

Everyone who waits for a block has a query for it, and every handle that is kept belongs to a
listener that the notifier still signals. This holds whatever the node does: it says that
registrations do not get mixed up or forgotten, and nothing about when they are served.

## Main definitions

- `Acceptance.Releases`: registrations leave and none comes
- `World.Kept`: what the queries and the handles say of those who wait

## Main results

- `Acceptance.releases_answerCallback`, `Acceptance.releases_answerListener`: an answer releases
- `World.Kept.step`: every step preserves `World.Kept`
-/

namespace LedgerWatch

/-! ## Registrations that leave -/

namespace Acceptance

/-- Registrations may be served or withdrawn on the way, but none is new, and the listeners stay
registered. -/
structure Releases (before after : Acceptance Nat) : Prop where
  callbacks : ∀ block number,
    after.callbacks.lookup block = some number → before.callbacks.lookup block = some number
  next : after.blockListeners.next = before.blockListeners.next
  registers : ∀ listener, before.blockListeners.Registers listener →
    after.blockListeners.Registers listener
  triggered : ∀ listener, before.blockListeners.isTriggered listener = true →
    after.blockListeners.isTriggered listener = true

theorem Releases.refl (a : Acceptance Nat) : a.Releases a :=
  ⟨fun _ _ h => h, rfl, fun _ h => h, fun _ h => h⟩

theorem releases_clear (a : Acceptance Nat) : a.Releases a.clear where
  callbacks := by simp [clear]
  next := rfl
  registers _ h := h
  triggered _ h := h

theorem releases_withdraw (block : BlockId) (a : Acceptance Nat) :
    a.Releases (a.withdraw block).1 where
  callbacks _ _ h := (Table.of_lookup_erase h).2
  next := rfl
  registers _ h := h
  triggered _ h := h

theorem releases_runCallback (metadata : BlockMetadata) (a : Acceptance Nat) :
    a.Releases (a.runCallback metadata).1 :=
  releases_withdraw metadata.blockId a

theorem releases_signalBlock (block : BlockId) (a : Acceptance Nat) :
    a.Releases (a.signalBlock block) where
  callbacks _ _ h := h
  next := Notifier.next_fire _ a.blockListeners
  registers _ h := h.notify block
  triggered _ h := Notifier.isTriggered_notify_of h block

theorem releases_answerCallback (answer : Except RpcStatus BlockMetadata) (a : Acceptance Nat) :
    a.Releases (a.answerCallback answer).1 := by
  unfold answerCallback
  split
  · exact .refl a
  · exact .refl a
  · split
    · exact releases_runCallback _ a
    · exact .refl a

theorem releases_answerListener (block : BlockId) (answer : Except RpcStatus BlockMetadata)
    (a : Acceptance Nat) : a.Releases (a.answerListener block answer).1 := by
  unfold answerListener
  split
  · exact .refl a
  · exact .refl a
  · dsimp only
    split
    · exact releases_signalBlock block a
    · exact .refl a

end Acceptance

/-! ## The books -/

namespace World

variable {w : World}

/-- Everyone who waits has a query for the block waited for, the numbers given so far are the ones
in use, and the handles kept are those of registered listeners. -/
structure Kept (w : World) : Prop where
  number_lt : ∀ number query, w.queries (.callback number) = some query → number < w.entered
  id_lt : ∀ id query, w.queries (.listener id) = some query → id < w.waiting.blockListeners.next
  answer_block : ∀ registration block metadata,
    w.queries registration = some ⟨block, .answered (.ok metadata)⟩ → metadata.blockId = block
  callback_query : ∀ block number, w.waiting.callbacks.lookup block = some number →
    w.HasQuery (.callback number) block
  handle_query : ∀ listener ∈ w.handles, w.HasQuery (.listener listener.id) listener.key
  registers : ∀ listener ∈ w.handles, w.waiting.blockListeners.Registers listener

theorem kept_start (node : BlockId → Option Standing) (stream : List BlockMetadata) :
    (start node stream).Kept where
  number_lt := by simp [start]
  id_lt := by simp [start]
  answer_block := by simp [start]
  callback_query := by simp [start, Acceptance.empty]
  handle_query := by simp [start]
  registers := by simp [start]

/-- Everyone who waits has a query. -/
theorem Kept.query (h : w.Kept) {block : BlockId} {registration : Registration}
    (hwaits : w.Waits block registration) : w.HasQuery registration block := by
  cases registration with
  | callback number => exact h.callback_query block number hwaits
  | listener id => exact h.handle_query ⟨block, id⟩ hwaits.1

/-- Two handles of one listener are the same. -/
theorem Kept.handle_unique (h : w.Kept) {l l' : Listener BlockId} (hl : l ∈ w.handles)
    (hl' : l' ∈ w.handles) (hid : l.id = l'.id) : l = l' := by
  obtain ⟨stage, hquery⟩ := h.handle_query l hl
  obtain ⟨stage', hquery'⟩ := h.handle_query l' hl'
  rw [hid, hquery'] at hquery
  obtain ⟨key, id⟩ := l
  obtain ⟨key', id'⟩ := l'
  simp_all

theorem Kept.release (h : w.Kept) {after : Acceptance Nat} (hafter : w.waiting.Releases after) :
    { w with waiting := after }.Kept where
  number_lt := h.number_lt
  id_lt id query hquery := hafter.next ▸ h.id_lt id query hquery
  answer_block := h.answer_block
  callback_query block number hlookup :=
    h.callback_query block number (hafter.callbacks block number hlookup)
  handle_query := h.handle_query
  registers listener hlistener := hafter.registers listener (h.registers listener hlistener)

/-- A query that moves on is for the same block as before. -/
theorem Kept.setQuery (h : w.Kept) {registration : Registration} {block : BlockId}
    {before after : QueryStage} (hquery : w.queries registration = some ⟨block, before⟩)
    (hafter : ∀ metadata, after = .answered (.ok metadata) → metadata.blockId = block) :
    (w.setQuery registration block after).Kept := by
  have hsame : ∀ other key, w.HasQuery other key → other = registration → key = block := by
    rintro other key ⟨stage, hother⟩ rfl
    rw [hquery] at hother
    exact (congrArg Query.block (Option.some.inj hother)).symm
  constructor
  · intro number query hnumber
    rcases eq_or_of_queries_setQuery hnumber with ⟨rfl, -⟩ | hold
    · exact h.number_lt number _ hquery
    · exact h.number_lt number query hold
  · intro id query hid
    rcases eq_or_of_queries_setQuery hid with ⟨rfl, -⟩ | hold
    · exact h.id_lt id _ hquery
    · exact h.id_lt id query hold
  · intro other key metadata hother
    rcases eq_or_of_queries_setQuery hother with ⟨-, hnew⟩ | hold
    · obtain ⟨rfl, hstage⟩ := Query.mk.inj hnew
      exact hafter metadata hstage.symm
    · exact h.answer_block other key metadata hold
  · intro key number hlookup
    have hkey := h.callback_query key number hlookup
    exact hkey.setQuery (hsame _ _ hkey) after
  · intro listener hlistener
    have hkey := h.handle_query listener hlistener
    exact hkey.setQuery (hsame _ _ hkey) after
  · exact h.registers

theorem Kept.enterCallback (h : w.Kept) (block : BlockId) : (w.enterCallback block).Kept := by
  cases hlookup : w.waiting.callbacks.lookup block with
  | some number => rwa [enterCallback_of_pending hlookup]
  | none =>
    rw [enterCallback_of_free hlookup]
    constructor
    · intro number query hnumber
      rcases eq_or_of_queries_setQuery hnumber with ⟨heq, -⟩ | hold
      · obtain rfl := Registration.callback.inj heq
        exact Nat.lt_succ_self _
      · exact Nat.lt_succ_of_lt (h.number_lt number query hold)
    · intro id query hid
      rcases eq_or_of_queries_setQuery hid with ⟨heq, -⟩ | hold
      · cases heq
      · exact h.id_lt id query hold
    · intro other key metadata hother
      rcases eq_or_of_queries_setQuery hother with ⟨-, hnew⟩ | hold
      · cases hnew
      · exact h.answer_block other key metadata hold
    · intro key number hnumber
      by_cases heq : key = block
      · subst heq
        obtain rfl : w.entered = number := by
          simpa [World.setQuery, Table.lookup_put_self] using hnumber
        exact hasQuery_setQuery_self ..
      · have hkey := h.callback_query key number (by
          simpa [World.setQuery, Table.lookup_put_of_ne heq] using hnumber)
        obtain ⟨stage, hquery⟩ := hkey
        have hlt : number < w.entered := h.number_lt number _ hquery
        refine HasQuery.setQuery ⟨stage, hquery⟩ (fun hnew => ?_) .unread
        have hnumber : number = w.entered := Registration.callback.inj hnew
        omega
    · intro listener hlistener
      exact HasQuery.setQuery (h.handle_query listener hlistener) (by simp) .unread
    · exact h.registers

theorem Kept.enterListener (h : w.Kept) (block : BlockId) : (w.enterListener block).Kept := by
  rw [enterListener_eq]
  constructor
  · intro number query hnumber
    rcases eq_or_of_queries_setQuery hnumber with ⟨heq, -⟩ | hold
    · cases heq
    · exact h.number_lt number query hold
  · intro id query hid
    rcases eq_or_of_queries_setQuery hid with ⟨heq, -⟩ | hold
    · obtain rfl := Registration.listener.inj heq
      exact Nat.lt_succ_self _
    · exact Nat.lt_succ_of_lt (h.id_lt id query hold)
  · intro other key metadata hother
    rcases eq_or_of_queries_setQuery hother with ⟨-, hnew⟩ | hold
    · cases hnew
    · exact h.answer_block other key metadata hold
  · intro key number hnumber
    exact HasQuery.setQuery (h.callback_query key number hnumber) (by simp) .unread
  · intro listener hlistener
    rcases List.mem_cons.mp hlistener with rfl | hold
    · exact hasQuery_setQuery_self ..
    · obtain ⟨stage, hquery⟩ := h.handle_query listener hold
      have hlt : listener.id < w.waiting.blockListeners.next := h.id_lt listener.id _ hquery
      refine HasQuery.setQuery ⟨stage, hquery⟩ (fun hnew => ?_) .unread
      have hid : listener.id = w.waiting.blockListeners.next := Registration.listener.inj hnew
      omega
  · intro listener hlistener
    rcases List.mem_cons.mp hlistener with rfl | hold
    · exact Notifier.registers_listen w.waiting.blockListeners block
    · exact (h.registers listener hold).listen block

/-- Dropping a handle leaves the listeners of the others registered. -/
theorem Kept.dropListener (h : w.Kept) {listener : Listener BlockId}
    (hkept : listener ∈ w.handles) :
    { w with
      waiting := w.waiting.dropListener listener
      handles := w.handles.filter (· ≠ listener) }.Kept where
  number_lt := h.number_lt
  id_lt := h.id_lt
  answer_block := h.answer_block
  callback_query := h.callback_query
  handle_query other hother := h.handle_query other (List.mem_filter.mp hother).1
  registers := by
    intro other hother
    obtain ⟨hmem, hne⟩ := List.mem_filter.mp hother
    have hid : other.id ≠ listener.id := fun hid =>
      of_decide_eq_true hne (h.handle_unique hmem hkept hid)
    exact (h.registers other hmem).drop hid

/-- An answer of the node is about the block that it was asked for. -/
theorem blockId_of_answers {block : BlockId} {standing : Option Standing}
    {metadata : BlockMetadata} (h : Answers block standing (.ok metadata)) :
    metadata.blockId = block := by
  cases h
  rfl

theorem Kept.step (h : w.Kept) {w' : World} (hstep : Step w w') : w'.Kept := by
  cases hstep with
  | enterCallback block => exact h.enterCallback block
  | enterListener block => exact h.enterListener block
  | read hquery hanswer =>
    refine h.setQuery hquery fun metadata hmetadata => ?_
    obtain rfl := QueryStage.answered.inj hmetadata
    exact blockId_of_answers hanswer
  | answerCallback hquery =>
    exact (h.release (Acceptance.releases_answerCallback _ _)).setQuery hquery (by simp)
  | answerListener hquery =>
    exact (h.release (Acceptance.releases_answerListener _ _ _)).setQuery hquery (by simp)
  | accept _ _ => exact { h with }
  | change _ => exact { h with }
  | take _ _ => exact { h with }
  | call _ => exact { h.release (Acceptance.releases_runCallback _ _) with }
  | signal _ => exact { h.release (Acceptance.releases_signalBlock _ _) with }
  | withdraw block => exact h.release (Acceptance.releases_withdraw block _)
  | clear => exact h.release (Acceptance.releases_clear _)
  | dropListener hkept => exact h.dropListener hkept

end World

end LedgerWatch
