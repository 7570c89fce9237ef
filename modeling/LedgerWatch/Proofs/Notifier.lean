import LedgerWatch.Notifier
import LedgerWatch.Table
import Mathlib.Data.List.Basic

/-!
# Signals reach every listener

A listener whose handle is kept stays in the list of its key, whatever happens to others. A
notification of its key raises its signal, and nothing lowers it.

## Main definitions

- `Notifier.Registers`: a listener is in the list of its key and has a signal
- `Notifier.Numbered`: numbers are given out once, so a listener is listed under its key only

## Main results

- `Notifier.Registers.listen`, `Notifier.Registers.notify`, `Notifier.Registers.drop`: it stays
  there
- `Notifier.Registers.isTriggered_notify`: a notification signals it
- `Notifier.Registers.isTriggered_notify_eq`, `Notifier.Registers.isTriggered_notifyWhere`: and
  nothing else does
- `Notifier.isTriggered_notify_of`, `Notifier.isTriggered_listen_of`, `Notifier.isTriggered_drop`:
  it remembers that it was signalled
-/

namespace LedgerWatch

@[simp] theorem Signal.raised_fire (s : Signal) : s.fire.raised = true := by
  simp [Signal.fire, Signal.raise, Signal.wake]

namespace Notifier

variable {κ : Type}

/-! ## Signals -/

theorem lookup_modifySignal (id other : Nat) (f : Signal → Signal) (n : Notifier κ) :
    (n.modifySignal id f).signals.lookup other =
      (n.signals.lookup other).map (if other = id then f else fun s => s) :=
  Table.lookup_update id other f n.signals

/-- Raising signals drops none, and raises those that are given beside those raised before. -/
theorem lookup_fire (ids : List Nat) (n : Notifier κ) (id : Nat) :
    (((n.fire ids).1.signals.lookup id).isSome = (n.signals.lookup id).isSome) ∧
      ((n.fire ids).1.signal id).raised =
        ((n.signal id).raised || ((n.signals.lookup id).isSome && decide (id ∈ ids))) := by
  induction ids generalizing n with
  | nil => simp [fire]
  | cons first rest ih =>
    obtain ⟨hsome, hraised⟩ := ih (n.modifySignal first Signal.fire)
    have hfire : (n.fire (first :: rest)).1 = ((n.modifySignal first Signal.fire).fire rest).1 :=
      rfl
    rw [hfire, hsome, hraised]
    simp only [signal, lookup_modifySignal, List.mem_cons]
    by_cases hid : id = first
    · cases n.signals.lookup id <;> simp [hid]
    · cases n.signals.lookup id <;> simp [hid]

theorem table_fire (ids : List Nat) (n : Notifier κ) : (n.fire ids).1.table = n.table := by
  induction ids generalizing n with
  | nil => rfl
  | cons id rest ih => exact ih (n.modifySignal id Signal.fire)

theorem next_fire (ids : List Nat) (n : Notifier κ) : (n.fire ids).1.next = n.next := by
  induction ids generalizing n with
  | nil => rfl
  | cons id rest ih => exact ih (n.modifySignal id Signal.fire)

/-! ## Lists of listeners -/

variable [DecidableEq κ]

theorem lookup_insertInto_self (key : κ) (id : Nat) (table : List (κ × List Nat)) :
    (insertInto key id table).lookup key = some ((table.lookup key).getD [] ++ [id]) := by
  induction table with
  | nil => simp [insertInto]
  | cons entry rest ih =>
    obtain ⟨k, ids⟩ := entry
    by_cases hk : k = key
    · simp [insertInto, hk]
    · rw [insertInto, if_neg hk, Table.lookup_cons_of_ne (Ne.symm hk), ih,
        Table.lookup_cons_of_ne (Ne.symm hk)]

theorem lookup_insertInto_of_ne {key other : κ} (h : other ≠ key) (id : Nat)
    (table : List (κ × List Nat)) :
    (insertInto key id table).lookup other = table.lookup other := by
  induction table with
  | nil => rw [insertInto, Table.lookup_cons_of_ne h]
  | cons entry rest ih =>
    obtain ⟨k, ids⟩ := entry
    by_cases hk : k = key
    · subst hk
      rw [insertInto, if_pos rfl, Table.lookup_cons_of_ne h, Table.lookup_cons_of_ne h]
    · rw [insertInto, if_neg hk, List.lookup_cons, List.lookup_cons, ih]

/-- Removing one listener leaves the others where they are. -/
theorem mem_lookup_removeFrom {key other : κ} {id kept : Nat} (h : kept ≠ id)
    {table : List (κ × List Nat)} (hmem : kept ∈ (table.lookup other).getD []) :
    kept ∈ ((removeFrom key id table).lookup other).getD [] := by
  induction table with
  | nil => exact hmem
  | cons entry rest ih =>
    obtain ⟨k, ids⟩ := entry
    by_cases hother : other = k
    · subst hother
      have hids : kept ∈ ids := by simpa using hmem
      by_cases hk : other = key
      · have hkept : kept ∈ ids.filter (· != id) := by simp [hids, h]
        have hne : (ids.filter (· != id)).isEmpty = false :=
          List.isEmpty_eq_false_iff_exists_mem.mpr ⟨kept, hkept⟩
        simpa [removeFrom, hk, hne] using hkept
      · simpa [removeFrom, hk] using hids
    · rw [Table.lookup_cons_of_ne hother] at hmem
      by_cases hk : k = key
      · rw [removeFrom, if_pos hk]
        dsimp only
        split
        · exact hmem
        · rwa [Table.lookup_cons_of_ne hother]
      · rw [removeFrom, if_neg hk, Table.lookup_cons_of_ne hother]
        exact ih hmem

/-! ## Listeners that stay registered -/

/-- The listener is in the list of its key and has a signal. -/
structure Registers (n : Notifier κ) (listener : Listener κ) : Prop where
  listed : listener.id ∈ n.listeners listener.key
  signalled : (n.signals.lookup listener.id).isSome

variable {n : Notifier κ} {listener : Listener κ}

theorem registers_listen (n : Notifier κ) (key : κ) :
    (n.listen key).1.Registers (n.listen key).2 := by
  constructor
  · simp [listen, listeners, lookup_insertInto_self]
  · simp [listen, List.lookup_append]

theorem Registers.listen (h : n.Registers listener) (key : κ) :
    (n.listen key).1.Registers listener := by
  constructor
  · by_cases hkey : listener.key = key
    · have hlisted := h.listed
      rw [hkey] at hlisted
      simpa [Notifier.listen, listeners, hkey, lookup_insertInto_self] using Or.inl hlisted
    · simpa [Notifier.listen, listeners, lookup_insertInto_of_ne hkey] using h.listed
  · have hsome := h.signalled
    rw [Notifier.listen, List.lookup_append, Option.isSome_or, hsome, Bool.true_or]

theorem Registers.fire (h : n.Registers listener) (ids : List Nat) :
    (n.fire ids).1.Registers listener := by
  constructor
  · rw [listeners, table_fire]
    exact h.listed
  · rw [(lookup_fire _ _ _).1]
    exact h.signalled

theorem Registers.notify (h : n.Registers listener) (key : κ) :
    (n.notify key).1.Registers listener :=
  h.fire _

theorem signals_drop (dropped : Listener κ) (n : Notifier κ) :
    (n.drop dropped).signals = Table.erase dropped.id n.signals := by
  simp [Notifier.drop, Table.erase, bne, beq_eq_decide]

theorem lookup_signals_drop {dropped : Listener κ} {id : Nat} (h : id ≠ dropped.id)
    (n : Notifier κ) : (n.drop dropped).signals.lookup id = n.signals.lookup id := by
  rw [signals_drop, Table.lookup_erase_of_ne h]

theorem Registers.drop (h : n.Registers listener) {dropped : Listener κ}
    (hne : listener.id ≠ dropped.id) : (n.drop dropped).Registers listener := by
  constructor
  · exact mem_lookup_removeFrom hne h.listed
  · rw [lookup_signals_drop hne]
    exact h.signalled

/-- A notification signals every listener of its key. -/
theorem Registers.isTriggered_notify (h : n.Registers listener) :
    (n.notify listener.key).1.isTriggered listener = true := by
  rw [isTriggered, Notifier.notify, (lookup_fire _ _ _).2, h.signalled]
  simp [h.listed]

/-- A listener that comes signals no other. -/
theorem Registers.isTriggered_listen (h : n.Registers listener) (key : κ) :
    (n.listen key).1.isTriggered listener = n.isTriggered listener := by
  obtain ⟨s, hlookup⟩ := Option.isSome_iff_exists.mp h.signalled
  simp [isTriggered, signal, Notifier.listen, List.lookup_append, hlookup]

/-- A listener that was signalled remembers it when its key or another is notified. -/
theorem isTriggered_notify_of (h : n.isTriggered listener = true) (key : κ) :
    (n.notify key).1.isTriggered listener = true := by
  rw [isTriggered] at h
  rw [isTriggered, Notifier.notify, (lookup_fire _ _ _).2, h, Bool.true_or]

/-- It remembers it when another listener comes. -/
theorem isTriggered_listen_of (h : n.isTriggered listener = true) (key : κ) :
    (n.listen key).1.isTriggered listener = true := by
  cases hlookup : n.signals.lookup listener.id with
  | none => simp [isTriggered, signal, hlookup] at h
  | some s => simpa [isTriggered, signal, Notifier.listen, List.lookup_append, hlookup] using h

/-- It remembers it when another listener goes. -/
theorem isTriggered_drop {dropped : Listener κ} (h : listener.id ≠ dropped.id) :
    (n.drop dropped).isTriggered listener = n.isTriggered listener := by
  rw [isTriggered, isTriggered, signal, signal, lookup_signals_drop h]

/-! ## Numbers and their keys -/

/-- The keys of a table, each with every number listed under it. -/
def entries (table : List (κ × List Nat)) : List (κ × Nat) :=
  table.flatMap fun entry => entry.2.map (entry.1, ·)

omit [DecidableEq κ] in
theorem entries_cons (key : κ) (ids : List Nat) (rest : List (κ × List Nat)) :
    entries ((key, ids) :: rest) = ids.map (key, ·) ++ entries rest := rfl

theorem mem_entries_of_mem_listeners {key : κ} {id : Nat} {n : Notifier κ}
    (h : id ∈ n.listeners key) : (key, id) ∈ entries n.table := by
  cases hlookup : n.table.lookup key with
  | none => simp [listeners, hlookup] at h
  | some ids =>
    obtain ⟨before, after, htable, -⟩ := List.lookup_eq_some_iff.mp hlookup
    have hid : id ∈ ids := by simpa [listeners, hlookup] using h
    exact List.mem_flatMap.mpr ⟨(key, ids), by simp [htable], by simpa using hid⟩

theorem mem_entries_insertInto {key : κ} {id : Nat} {entry : κ × Nat}
    {table : List (κ × List Nat)} :
    entry ∈ entries (insertInto key id table) ↔ entry = (key, id) ∨ entry ∈ entries table := by
  induction table with
  | nil => simp [insertInto, entries]
  | cons first rest ih =>
    obtain ⟨k, ids⟩ := first
    by_cases hk : k = key
    · subst hk
      simp only [insertInto, if_pos, entries_cons, List.map_append, List.map_cons, List.map_nil,
        List.mem_append, List.mem_singleton]
      rw [or_assoc, or_left_comm]
    · rw [insertInto, if_neg hk, entries_cons, entries_cons, List.mem_append, List.mem_append, ih,
        or_left_comm]

theorem mem_entries_of_mem_removeFrom {key : κ} {id : Nat} {entry : κ × Nat}
    {table : List (κ × List Nat)} (h : entry ∈ entries (removeFrom key id table)) :
    entry ∈ entries table := by
  induction table with
  | nil => exact h
  | cons first rest ih =>
    obtain ⟨k, ids⟩ := first
    rw [entries_cons, List.mem_append]
    by_cases hk : k = key
    · rw [removeFrom, if_pos hk] at h
      dsimp only at h
      split at h
      · exact .inr h
      · rw [entries_cons, List.mem_append] at h
        refine h.imp_left fun hmem => ?_
        exact List.map_subset _ List.filter_sublist.subset hmem
    · rw [removeFrom, if_neg hk, entries_cons, List.mem_append] at h
      exact h.imp_right ih

/-- Numbers are given out once: those in use are below the next one, and each is listed under one
key. -/
structure Numbered (n : Notifier κ) : Prop where
  lt_next : ∀ key id, (key, id) ∈ entries n.table → id < n.next
  key_unique : ∀ key key' id, (key, id) ∈ entries n.table → (key', id) ∈ entries n.table →
    key = key'
  signal_lt : ∀ id, (n.signals.lookup id).isSome → id < n.next

omit [DecidableEq κ] in
theorem numbered_empty : (empty : Notifier κ).Numbered := by
  constructor <;> simp [empty, entries]

omit [DecidableEq κ] in
theorem Numbered.fire (h : n.Numbered) (ids : List Nat) : (n.fire ids).1.Numbered where
  lt_next := by
    rw [table_fire, next_fire]
    exact h.lt_next
  key_unique := by
    rw [table_fire]
    exact h.key_unique
  signal_lt id := by
    rw [(lookup_fire ids n id).1, next_fire]
    exact h.signal_lt id

theorem Numbered.listen (h : n.Numbered) (key : κ) : (n.listen key).1.Numbered where
  lt_next k id hlisted := by
    rcases mem_entries_insertInto.mp hlisted with heq | hold
    · rw [(Prod.mk.inj heq).2]
      exact Nat.lt_succ_self _
    · exact Nat.lt_succ_of_lt (h.lt_next k id hold)
  key_unique k k' id hlisted hlisted' := by
    have hfresh : ∀ key', (key', n.next) ∉ entries n.table := fun key' hmem =>
      Nat.lt_irrefl _ (h.lt_next key' _ hmem)
    rcases mem_entries_insertInto.mp hlisted with heq | hold <;>
      rcases mem_entries_insertInto.mp hlisted' with heq' | hold'
    · exact (Prod.mk.inj heq).1.trans (Prod.mk.inj heq').1.symm
    · exact absurd ((Prod.mk.inj heq).2 ▸ hold') (hfresh k')
    · exact absurd ((Prod.mk.inj heq').2 ▸ hold) (hfresh k)
    · exact h.key_unique k k' id hold hold'
  signal_lt id hsome := by
    by_cases hid : id = n.next
    · exact hid ▸ Nat.lt_succ_self _
    · have hnew : List.lookup id [(n.next, ({} : Signal))] = none :=
        Table.lookup_cons_of_ne hid _ []
      have hold : (n.signals.lookup id).isSome := by
        rwa [Notifier.listen, List.lookup_append, hnew, Option.or_none] at hsome
      exact Nat.lt_succ_of_lt (h.signal_lt id hold)

theorem Numbered.drop (h : n.Numbered) (dropped : Listener κ) : (n.drop dropped).Numbered where
  lt_next k id hlisted := h.lt_next k id (mem_entries_of_mem_removeFrom hlisted)
  key_unique k k' id hlisted hlisted' := h.key_unique k k' id
    (mem_entries_of_mem_removeFrom hlisted) (mem_entries_of_mem_removeFrom hlisted')
  signal_lt id hsome := by
    rw [signals_drop] at hsome
    obtain ⟨signal, hlookup⟩ := Option.isSome_iff_exists.mp hsome
    exact h.signal_lt id (Option.isSome_of_eq_some (Table.of_lookup_erase hlookup).2)

/-- A new listener has not been signalled. -/
theorem Numbered.isTriggered_listen_self (h : n.Numbered) (key : κ) :
    (n.listen key).1.isTriggered (n.listen key).2 = false := by
  have hfresh : n.signals.lookup n.next = none := by
    rw [← Option.not_isSome_iff_eq_none]
    exact fun hsome => Nat.lt_irrefl _ (h.signal_lt _ hsome)
  simp [isTriggered, signal, Notifier.listen, List.lookup_append, hfresh]

/-- A number that is listed is that of one listener. -/
theorem Registers.key_eq (h : n.Registers listener) (hn : n.Numbered) {key : κ}
    (hlisted : (key, listener.id) ∈ entries n.table) : listener.key = key :=
  hn.key_unique _ _ _ (mem_entries_of_mem_listeners h.listed) hlisted

/-- A notification signals the listeners of its key and no others. -/
theorem Registers.isTriggered_notify_eq (h : n.Registers listener) (hn : n.Numbered) (key : κ) :
    (n.notify key).1.isTriggered listener =
      (n.isTriggered listener || decide (listener.key = key)) := by
  have hiff : listener.id ∈ n.listeners key ↔ listener.key = key :=
    ⟨fun hmem => h.key_eq hn (mem_entries_of_mem_listeners hmem), fun heq => heq ▸ h.listed⟩
  rw [isTriggered, Notifier.notify, (lookup_fire _ _ _).2, h.signalled, Bool.true_and,
    decide_eq_decide.mpr hiff, isTriggered]

/-- So does a notification of the keys that satisfy a condition. -/
theorem Registers.isTriggered_notifyWhere (h : n.Registers listener) (hn : n.Numbered)
    (condition : κ → Bool) :
    (n.notifyWhere condition).1.isTriggered listener =
      (n.isTriggered listener || condition listener.key) := by
  have hmember : decide (listener.id ∈
      (n.table.filter fun entry => condition entry.1).flatMap (·.2)) = condition listener.key := by
    rw [Bool.eq_iff_iff, decide_eq_true_iff]
    constructor
    · intro hmem
      obtain ⟨⟨key, ids⟩, hentry, hid⟩ := List.mem_flatMap.mp hmem
      obtain ⟨htable, hcondition⟩ := List.mem_filter.mp hentry
      have hkey := h.key_eq hn
        (List.mem_flatMap.mpr ⟨(key, ids), htable, List.mem_map_of_mem hid⟩)
      rwa [hkey]
    · intro hcondition
      obtain ⟨⟨key, ids⟩, htable, hid⟩ :=
        List.mem_flatMap.mp (mem_entries_of_mem_listeners h.listed)
      obtain ⟨id, hmem, heq⟩ := List.mem_map.mp hid
      obtain ⟨rfl, rfl⟩ := Prod.mk.inj heq
      exact List.mem_flatMap.mpr ⟨_, List.mem_filter.mpr ⟨htable, hcondition⟩, hmem⟩
  rw [isTriggered, Notifier.notifyWhere, (lookup_fire _ _ _).2, h.signalled, Bool.true_and, hmember,
    isTriggered]

end Notifier

end LedgerWatch
