import LedgerWatch.Proofs.Notifier
import LedgerWatch.Proofs.Notifier.History
import Mathlib.Data.List.Dedup

/-!
# A notifier keeps exact books

After any sequence of calls the counts of a notifier are those of the handles that are still held,
and a handle is triggered exactly if its key was notified since the handle was given out. Whoever
holds handles can tell both from the calls alone.

## Main definitions

- `Notifier.Tidy`: a table has every key once, and none without a listener
- `Notifier.afterCalls`: the notifier after a sequence of calls
- `Notifier.Books`: what a notifier has to do with the calls made on it

## Main results

- `Notifier.Books.perform`: a call keeps the books right
- `Notifier.counts_exact`: counts, signals and the effect of a drop after any sequence of calls
-/

namespace LedgerWatch

namespace Notifier

variable {κ : Type} [DecidableEq κ] {table : List (κ × List Nat)} {key : κ} {id : Nat}

/-! ## Tables -/

/-- Every key is there once, and has a listener. -/
structure Tidy (table : List (κ × List Nat)) : Prop where
  keys_nodup : (table.map Prod.fst).Nodup
  listeners_ne_nil : ∀ entry ∈ table, entry.2 ≠ []

theorem mem_keys_insertInto_iff {k : κ} :
    k ∈ (insertInto key id table).map Prod.fst ↔ k = key ∨ k ∈ table.map Prod.fst := by
  induction table with
  | nil => simp [insertInto]
  | cons entry rest ih =>
    obtain ⟨first, ids⟩ := entry
    by_cases hfirst : first = key
    · simp [insertInto, hfirst]
    · rw [insertInto, if_neg hfirst, List.map_cons, List.map_cons, List.mem_cons, List.mem_cons, ih,
        or_left_comm]

theorem Tidy.insertInto (h : Tidy table) (key : κ) (id : Nat) :
    Tidy (insertInto key id table) := by
  induction table with
  | nil => exact ⟨by simp [Notifier.insertInto], by simp [Notifier.insertInto]⟩
  | cons entry rest ih =>
    obtain ⟨first, ids⟩ := entry
    obtain ⟨hkeys, hlisteners⟩ := h
    rw [List.map_cons, List.nodup_cons] at hkeys
    obtain ⟨hids, hrest⟩ := List.forall_mem_cons.mp hlisteners
    by_cases hfirst : first = key
    · rw [Notifier.insertInto, if_pos hfirst]
      refine ⟨List.nodup_cons.mpr hkeys, List.forall_mem_cons.mpr ⟨?_, hrest⟩⟩
      simp
    · obtain ⟨hkeys', hlisteners'⟩ := ih ⟨hkeys.2, hrest⟩
      rw [Notifier.insertInto, if_neg hfirst]
      refine ⟨List.nodup_cons.mpr ⟨?_, hkeys'⟩, List.forall_mem_cons.mpr ⟨hids, hlisteners'⟩⟩
      rw [mem_keys_insertInto_iff]
      rintro (heq | hmem)
      · exact hfirst heq
      · exact hkeys.1 hmem

theorem keys_removeFrom_sublist (key : κ) (id : Nat) (table : List (κ × List Nat)) :
    ((removeFrom key id table).map Prod.fst).Sublist (table.map Prod.fst) := by
  induction table with
  | nil => exact .slnil
  | cons entry rest ih =>
    obtain ⟨first, ids⟩ := entry
    rw [removeFrom]
    dsimp only
    split
    · split
      · exact List.sublist_cons_self ..
      · exact .refl _
    · exact ih.cons_cons first

/-- No key is left without a listener. -/
theorem removeFrom_ne_nil (key : κ) (id : Nat) (h : ∀ entry ∈ table, entry.2 ≠ []) :
    ∀ entry ∈ removeFrom key id table, entry.2 ≠ [] := by
  induction table with
  | nil => exact h
  | cons entry rest ih =>
    obtain ⟨first, ids⟩ := entry
    obtain ⟨hids, hrest⟩ := List.forall_mem_cons.mp h
    rw [removeFrom]
    dsimp only
    split
    · split
      · exact hrest
      · next hsome =>
        exact List.forall_mem_cons.mpr ⟨mt List.isEmpty_iff.mpr hsome, hrest⟩
    · exact List.forall_mem_cons.mpr ⟨hids, ih hrest⟩

theorem Tidy.removeFrom (h : Tidy table) (key : κ) (id : Nat) :
    Tidy (removeFrom key id table) where
  keys_nodup := h.keys_nodup.sublist (keys_removeFrom_sublist key id table)
  listeners_ne_nil := removeFrom_ne_nil key id h.listeners_ne_nil

theorem entries_insertInto_perm (key : κ) (id : Nat) (table : List (κ × List Nat)) :
    (entries (insertInto key id table)).Perm ((key, id) :: entries table) := by
  induction table with
  | nil => exact .refl _
  | cons entry rest ih =>
    obtain ⟨first, ids⟩ := entry
    by_cases hfirst : first = key
    · subst hfirst
      simp only [insertInto, if_pos, entries_cons, List.map_append, List.map_cons, List.map_nil,
        List.append_assoc, List.singleton_append]
      exact List.perm_middle
    · rw [insertInto, if_neg hfirst, entries_cons, entries_cons]
      exact (ih.append_left _).trans List.perm_middle

omit [DecidableEq κ] in
theorem fst_mem_keys_of_mem_entries {entry : κ × Nat} (h : entry ∈ entries table) :
    entry.1 ∈ table.map Prod.fst := by
  obtain ⟨listed, hlisted, hentry⟩ := List.mem_flatMap.mp h
  obtain ⟨number, -, rfl⟩ := List.mem_map.mp hentry
  exact List.mem_map_of_mem hlisted

/-- Only the listener that is removed goes away. -/
theorem entries_removeFrom (hkeys : (table.map Prod.fst).Nodup) (key : κ) (id : Nat) :
    entries (removeFrom key id table) = (entries table).filter (· ≠ (key, id)) := by
  induction table with
  | nil => rfl
  | cons entry rest ih =>
    obtain ⟨first, ids⟩ := entry
    obtain ⟨hfirst, hrest⟩ := List.nodup_cons.mp hkeys
    rw [entries_cons, List.filter_append, List.filter_map]
    by_cases hkey : first = key
    · subst hkey
      have hids : ids.filter ((fun entry => decide (entry ≠ (first, id))) ∘ (first, ·)) =
          ids.filter (· != id) :=
        List.filter_congr fun number _ => by simp [bne, beq_eq_decide]
      have hothers : (entries rest).filter (· ≠ (first, id)) = entries rest := by
        rw [List.filter_eq_self]
        intro entry hentry
        refine decide_eq_true fun heq => hfirst ?_
        have hkey := fst_mem_keys_of_mem_entries hentry
        rwa [heq] at hkey
      rw [removeFrom, if_pos rfl, hids, hothers]
      dsimp only
      split
      · next hnone =>
        rw [List.isEmpty_iff.mp hnone, List.map_nil, List.nil_append]
      · rfl
    · have hids : ids.filter ((fun entry => decide (entry ≠ (key, id))) ∘ (first, ·)) = ids := by
        rw [List.filter_eq_self]
        exact fun number _ => decide_eq_true fun heq => hkey (Prod.mk.inj heq).1
      rw [removeFrom, if_neg hkey, entries_cons, ih hrest, hids]

/-- To look for a key is to look for those that are equal to it. -/
theorem getD_lookup_eq (hkeys : (table.map Prod.fst).Nodup) (key : κ) :
    (table.lookup key).getD [] =
      (table.filter fun entry => decide (entry.1 = key)).flatMap (·.2) := by
  induction table with
  | nil => rfl
  | cons entry rest ih =>
    obtain ⟨first, ids⟩ := entry
    obtain ⟨hfirst, hrest⟩ := List.nodup_cons.mp hkeys
    by_cases hkey : first = key
    · subst hkey
      have hothers : rest.filter (fun entry => decide (entry.1 = first)) = [] := by
        rw [List.filter_eq_nil_iff]
        intro entry hentry heq
        refine hfirst ?_
        exact List.mem_map.mpr ⟨entry, hentry, of_decide_eq_true heq⟩
      simp [hothers]
    · rw [Table.lookup_cons_of_ne (Ne.symm hkey), ih hrest,
        List.filter_cons_of_neg (by simpa using hkey)]

omit [DecidableEq κ] in
theorem length_flatMap_filter (condition : κ → Bool) (table : List (κ × List Nat)) :
    ((table.filter fun entry => condition entry.1).flatMap (·.2)).length =
      (entries table).countP fun entry => condition entry.1 := by
  induction table with
  | nil => rfl
  | cons entry rest ih =>
    obtain ⟨first, ids⟩ := entry
    rw [entries_cons, List.countP_append, List.countP_map, ← ih]
    cases hfirst : condition first <;> simp [hfirst, Function.comp_def]

/-- As many keys are there as the listeners have. -/
theorem Tidy.length_eq (h : Tidy table) :
    table.length = ((entries table).map Prod.fst).dedup.length := by
  have hperm : (table.map Prod.fst).Perm ((entries table).map Prod.fst).dedup := by
    rw [List.perm_ext_iff_of_nodup h.keys_nodup (List.nodup_dedup _)]
    intro key
    rw [List.mem_dedup]
    constructor
    · intro hkey
      obtain ⟨⟨first, ids⟩, hentry, rfl⟩ := List.mem_map.mp hkey
      obtain ⟨id, hid⟩ := List.exists_mem_of_ne_nil ids (h.listeners_ne_nil _ hentry)
      exact List.mem_map.mpr ⟨(first, id),
        List.mem_flatMap.mpr ⟨_, hentry, List.mem_map_of_mem hid⟩, rfl⟩
    · intro hkey
      obtain ⟨entry, hentry, rfl⟩ := List.mem_map.mp hkey
      exact fst_mem_keys_of_mem_entries hentry
  rw [← hperm.length_eq, List.length_map]

/-! ## Books -/

/-- The notifier after the calls. -/
def afterCalls (calls : List (NotifierCall κ)) : Notifier κ :=
  calls.foldl NotifierCall.perform empty

/-- The notifier lists the handles that are held and no others, and has raised the signals of those
that were reached. -/
structure Books (calls : List (NotifierCall κ)) (n : Notifier κ) : Prop where
  next_eq : n.next = (NotifierCall.given calls).length
  tidy : Tidy n.table
  numbered : n.Numbered
  entries_perm :
    (entries n.table).Perm ((NotifierCall.held calls).map fun l => (l.key, l.id))
  registers : ∀ listener ∈ NotifierCall.held calls, n.Registers listener
  isTriggered_iff : ∀ listener ∈ NotifierCall.held calls,
    n.isTriggered listener = true ↔ NotifierCall.ReachedSince calls listener

section Books

open NotifierCall

variable {calls : List (NotifierCall κ)} {n : Notifier κ} {dropped listener : Listener κ}

theorem books_nil : Books ([] : List (NotifierCall κ)) empty where
  next_eq := rfl
  tidy := ⟨List.nodup_nil, by simp [empty]⟩
  numbered := numbered_empty
  entries_perm := .refl _
  registers listener hheld := by cases hheld
  isTriggered_iff listener hheld := by cases hheld

theorem Books.listen (hp : Proper calls) (h : Books calls n) (key : κ) :
    Books (calls ++ [.listen key]) (n.listen key).1 := by
  have hheld : held (calls ++ [.listen key]) = held calls ++ [⟨key, n.next⟩] := by
    rw [held_concat hp, h.next_eq]
    simp [dropped?, gives]
  have hgiven : given (calls ++ [.listen key]) = given calls ++ [⟨key, n.next⟩] := by
    rw [given_concat, h.next_eq]
    rfl
  constructor
  case next_eq => simp [Notifier.listen, hgiven, h.next_eq]
  case tidy => exact h.tidy.insertInto key n.next
  case numbered => exact h.numbered.listen key
  case entries_perm =>
    rw [hheld, List.map_append]
    exact ((entries_insertInto_perm key n.next n.table).trans (h.entries_perm.cons _)).trans
      (List.perm_append_singleton _ _).symm
  case registers =>
    intro listener hlistener
    rw [hheld, List.mem_append, List.mem_singleton] at hlistener
    rcases hlistener with hold | rfl
    · exact (h.registers listener hold).listen key
    · exact registers_listen n key
  case isTriggered_iff =>
    intro listener hlistener
    rw [hheld, List.mem_append, List.mem_singleton] at hlistener
    rcases hlistener with hold | rfl
    · rw [(h.registers listener hold).isTriggered_listen, h.isTriggered_iff listener hold,
        reachedSince_concat_iff (mem_held_iff.mp hold).1]
      simp [NotifierCall.reaches]
    · have hnot := h.numbered.isTriggered_listen_self key
      have hreached := not_reachedSince_listen calls key
      rw [← h.next_eq] at hreached
      exact iff_of_false (by simpa [Notifier.listen] using hnot) hreached

/-- Raising signals keeps the books right if the call signals the same listeners. -/
theorem Books.fire {call : NotifierCall κ} {ids : List Nat} (hp : Proper calls)
    (h : Books calls n) (hgives : call.gives (given calls).length = none)
    (hdropped : call.dropped? = none)
    (htriggered : ∀ listener, n.Registers listener →
      (n.fire ids).1.isTriggered listener = (n.isTriggered listener || call.reaches listener.key)) :
    Books (calls ++ [call]) (n.fire ids).1 := by
  have hheld : held (calls ++ [call]) = held calls := by
    rw [held_concat hp, hgives, hdropped]
    simp
  have hgiven : given (calls ++ [call]) = given calls := by
    rw [given_concat, hgives]
    simp
  constructor
  case next_eq => rw [next_fire, hgiven, h.next_eq]
  case tidy =>
    rw [table_fire]
    exact h.tidy
  case numbered => exact h.numbered.fire ids
  case entries_perm =>
    rw [table_fire, hheld]
    exact h.entries_perm
  case registers =>
    rw [hheld]
    exact fun listener hlistener => (h.registers listener hlistener).fire ids
  case isTriggered_iff =>
    rw [hheld]
    intro listener hlistener
    rw [htriggered listener (h.registers listener hlistener), Bool.or_eq_true,
      h.isTriggered_iff listener hlistener,
      reachedSince_concat_iff (mem_held_iff.mp hlistener).1]

theorem Books.drop (hp : Proper calls) (h : Books calls n) (hdropped : dropped ∈ held calls) :
    Books (calls ++ [.drop dropped]) (n.drop dropped) := by
  have hgiven : given (calls ++ [.drop dropped]) = given calls := by
    rw [given_concat]
    simp [gives]
  have hother : ∀ listener ∈ held (calls ++ [.drop dropped]),
      listener ∈ held calls ∧ listener.id ≠ dropped.id := by
    intro listener hlistener
    rw [held_drop hp, List.mem_filter, decide_eq_true_iff] at hlistener
    obtain ⟨hold, hne⟩ := hlistener
    exact ⟨hold, id_ne_of_mem_held hold hdropped hne⟩
  constructor
  case next_eq => exact h.next_eq.trans (congrArg List.length hgiven).symm
  case tidy => exact h.tidy.removeFrom _ _
  case numbered => exact h.numbered.drop dropped
  case entries_perm =>
    rw [held_drop hp]
    simp only [Notifier.drop]
    rw [entries_removeFrom h.tidy.keys_nodup]
    have hperm := h.entries_perm.filter (· ≠ (dropped.key, dropped.id))
    have hsame : (held calls).filter ((fun entry : κ × Nat =>
        decide (entry ≠ (dropped.key, dropped.id))) ∘ fun l => (l.key, l.id)) =
        (held calls).filter (· ≠ dropped) := by
      refine List.filter_congr fun l _ => ?_
      obtain ⟨key, id⟩ := l
      obtain ⟨droppedKey, droppedId⟩ := dropped
      simp
    rwa [List.filter_map, hsame] at hperm
  case registers =>
    intro listener hlistener
    obtain ⟨hold, hne⟩ := hother listener hlistener
    exact (h.registers listener hold).drop hne
  case isTriggered_iff =>
    intro listener hlistener
    obtain ⟨hold, hne⟩ := hother listener hlistener
    rw [isTriggered_drop hne, h.isTriggered_iff listener hold,
      reachedSince_concat_iff (mem_held_iff.mp hold).1]
    simp [NotifierCall.reaches]

/-- A call keeps the books right. -/
theorem Books.perform {call : NotifierCall κ} (hp : Proper calls) (h : Books calls n)
    (hdrop : ∀ listener, call = .drop listener → listener ∈ held calls) :
    Books (calls ++ [call]) (call.perform n) := by
  cases call with
  | listen key => exact h.listen hp key
  | notify key =>
    refine h.fire hp rfl rfl fun listener hlistener => ?_
    rw [← Notifier.notify, hlistener.isTriggered_notify_eq h.numbered,
      NotifierCall.reaches]
    simp only [eq_comm]
  | notifyWhere condition =>
    refine h.fire hp rfl rfl fun listener hlistener => ?_
    exact hlistener.isTriggered_notifyWhere h.numbered condition
  | drop listener => exact h.drop hp (hdrop listener rfl)

theorem books_afterCalls (hp : Proper calls) : Books calls (afterCalls calls) := by
  induction hp with
  | nil => exact books_nil
  | call hp hdrop ih =>
    rw [afterCalls, List.foldl_append]
    exact ih.perform hp hdrop

theorem Books.length_listeners (h : Books calls n) (condition : κ → Bool) :
    ((n.table.filter fun entry => condition entry.1).flatMap (·.2)).length =
      (held calls).countP fun l => condition l.key := by
  rw [length_flatMap_filter, h.entries_perm.countP_eq, List.countP_map]
  rfl

theorem Books.listenerCount_eq (h : Books calls n) (key : κ) :
    n.listenerCount key = (held calls).countP fun l => l.key = key := by
  rw [listenerCount, listeners, getD_lookup_eq h.tidy.keys_nodup,
    h.length_listeners fun k => decide (k = key)]

theorem Books.keyCount_eq (h : Books calls n) :
    n.keyCount = ((held calls).map Listener.key).dedup.length := by
  rw [keyCount, h.tidy.length_eq, (h.entries_perm.map Prod.fst).dedup.length_eq, List.map_map]
  rfl

/-- After any calls, with handles dropped only while they are held: the listeners of a key are as
many as the handles held for it, the keys as many as these have, and a notification tells how many
handles it signalled. A handle is triggered if and only if its key was notified since it was given
out. A handle that is dropped takes nothing from another. -/
theorem counts_exact (hp : Proper calls) :
    (held calls).Nodup ∧
      (∀ key, given (calls ++ [.listen key]) =
        given calls ++ [((afterCalls calls).listen key).2]) ∧
      (∀ key, (afterCalls calls).listenerCount key =
        (held calls).countP fun l => l.key = key) ∧
      (afterCalls calls).keyCount = ((held calls).map Listener.key).dedup.length ∧
      (∀ entry ∈ (afterCalls calls).table, entry.2 ≠ []) ∧
      (∀ key, ((afterCalls calls).notify key).2 = (held calls).countP fun l => l.key = key) ∧
      (∀ condition, ((afterCalls calls).notifyWhere condition).2 =
        (held calls).countP fun l => condition l.key) ∧
      (∀ listener ∈ held calls,
        (afterCalls calls).isTriggered listener = true ↔ ReachedSince calls listener) ∧
      ∀ dropped ∈ held calls,
        held (calls ++ [.drop dropped]) = (held calls).filter (· ≠ dropped) ∧
          ∀ listener ∈ held calls, listener ≠ dropped →
            ((afterCalls calls).drop dropped).Registers listener ∧
              ((afterCalls calls).drop dropped).isTriggered listener =
                (afterCalls calls).isTriggered listener := by
  have h := books_afterCalls hp
  refine ⟨held_nodup calls, fun key => ?_, h.listenerCount_eq, h.keyCount_eq,
    h.tidy.listeners_ne_nil, h.listenerCount_eq, fun condition => ?_, h.isTriggered_iff,
    fun dropped hdropped => ⟨held_drop hp dropped, fun listener hlistener hne => ?_⟩⟩
  · rw [given_concat, Notifier.listen, h.next_eq]
    rfl
  · exact h.length_listeners condition
  · have hid := id_ne_of_mem_held hlistener hdropped hne
    exact ⟨(h.registers listener hlistener).drop hid, isTriggered_drop hid⟩

/-- Three handles of one key and one of another. One is dropped before the last notification, and
one is given out after the notification of its key. -/
theorem counts_exact_fourHandles :
    let calls : List (NotifierCall Nat) := [.listen 7, .listen 7, .notify 7, .listen 8, .listen 7,
      .drop ⟨7, 0⟩, .notifyWhere fun key => 7 < key]
    Proper calls ∧ held calls = [⟨7, 1⟩, ⟨8, 2⟩, ⟨7, 3⟩] ∧
      (afterCalls calls).listenerCount 7 = 2 ∧ (afterCalls calls).keyCount = 2 ∧
      ((afterCalls calls).notifyWhere fun key => key < 8).2 = 2 ∧
      ReachedSince calls ⟨7, 1⟩ ∧ ReachedSince calls ⟨8, 2⟩ ∧ ¬ ReachedSince calls ⟨7, 3⟩ := by
  intro calls
  have hproper : Proper ([] ++ [.listen 7] ++ [.listen 7] ++ [.notify 7] ++ [.listen 8] ++
      [.listen 7] ++ [.drop ⟨7, 0⟩] ++ [.notifyWhere fun key => 7 < key]) := by
    refine .call (.call (.call (.call (.call (.call (.call .nil ?_) ?_) ?_) ?_) ?_) ?_) ?_ <;>
      intro listener hdrop <;> cases hdrop
    decide
  have hheld : held calls = [⟨7, 1⟩, ⟨8, 2⟩, ⟨7, 3⟩] := by decide
  obtain ⟨-, -, hlisteners, hkeys, -, -, hreached, htriggered, -⟩ := @counts_exact _ _ calls hproper
  rw [hheld] at hlisteners hkeys hreached htriggered
  refine ⟨hproper, hheld, hlisteners 7, hkeys, hreached _, ?_, ?_, ?_⟩
  · exact (htriggered ⟨7, 1⟩ (by decide)).mp (by decide)
  · exact (htriggered ⟨8, 2⟩ (by decide)).mp (by decide)
  · exact mt (htriggered ⟨7, 3⟩ (by decide)).mpr (by decide)

end Books

end Notifier

end LedgerWatch
