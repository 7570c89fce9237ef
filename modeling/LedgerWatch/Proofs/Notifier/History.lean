import LedgerWatch.Notifier
import Mathlib.Data.List.Basic
import Mathlib.Data.List.Induction
import Mathlib.Data.List.Nodup

/-!
# Histories of a notifier

A notifier is told of nothing but the calls made on it. From these alone it can be said which
handles were given out, which of them are still held, and of which the key was notified since they
were given out.

## Main definitions

- `NotifierCall`: a call, `NotifierCall.perform`: what it makes of a notifier
- `NotifierCall.given`, `NotifierCall.held`: the handles given out so far, and those still held
- `NotifierCall.Proper`: handles are dropped only while they are held
- `NotifierCall.ReachedSince`: the key of a handle was notified since the handle was given out

## Main results

- `NotifierCall.given_concat`, `NotifierCall.held_concat`: the handles after one more call
- `NotifierCall.reachedSince_concat_iff`, `NotifierCall.not_reachedSince_listen`: those that were
  reached
-/

namespace LedgerWatch

/-- A call on a notifier. To deregister a listener is to drop its handle. -/
inductive NotifierCall (κ : Type) where
  | listen (key : κ)
  | notify (key : κ)
  | notifyWhere (condition : κ → Bool)
  | drop (listener : Listener κ)

namespace NotifierCall

variable {κ : Type} [DecidableEq κ]

def perform (n : Notifier κ) : NotifierCall κ → Notifier κ
  | listen key => (n.listen key).1
  | notify key => (n.notify key).1
  | notifyWhere condition => (n.notifyWhere condition).1
  | drop listener => n.drop listener

/-- The key for which a call registers a listener. -/
def listened? : NotifierCall κ → Option κ
  | listen key => some key
  | notify _ | notifyWhere _ | drop _ => none

def dropped? : NotifierCall κ → Option (Listener κ)
  | drop listener => some listener
  | listen _ | notify _ | notifyWhere _ => none

/-- Whether a call signals the listeners of a key. -/
def reaches (key : κ) : NotifierCall κ → Bool
  | notify notified => notified = key
  | notifyWhere condition => condition key
  | listen _ | drop _ => false

/-- The handles given out, in the order of their numbers. -/
def given (calls : List (NotifierCall κ)) : List (Listener κ) :=
  (calls.filterMap listened?).zipIdx.map fun (key, number) => ⟨key, number⟩

/-- The handles given out and not dropped. -/
def held (calls : List (NotifierCall κ)) : List (Listener κ) :=
  (given calls).filter fun listener => listener ∉ calls.filterMap dropped?

/-- Handles are dropped only while they are held. -/
inductive Proper : List (NotifierCall κ) → Prop
  | nil : Proper []
  | call {calls : List (NotifierCall κ)} {next : NotifierCall κ} (h : Proper calls)
      (hdrop : ∀ listener, next = .drop listener → listener ∈ held calls) :
      Proper (calls ++ [next])

/-- After the call that gave out the handle there was one that signals its key. -/
def ReachedSince (calls : List (NotifierCall κ)) (listener : Listener κ) : Prop :=
  ∃ before after, calls = before ++ .listen listener.key :: after ∧
    (given before).length = listener.id ∧ ∃ call ∈ after, call.reaches listener.key

end NotifierCall

/-! ## Histories -/

namespace NotifierCall

variable {κ : Type} {calls : List (NotifierCall κ)} {next : NotifierCall κ}
  {listener other : Listener κ} {key : κ}

/-- The handle that a call gives out, if as many were given out before it. -/
def gives (number : Nat) : NotifierCall κ → Option (Listener κ)
  | listen key => some ⟨key, number⟩
  | notify _ | notifyWhere _ | drop _ => none

theorem length_given (calls : List (NotifierCall κ)) :
    (given calls).length = (calls.filterMap listened?).length := by
  simp [given]

theorem given_concat (calls : List (NotifierCall κ)) (next : NotifierCall κ) :
    given (calls ++ [next]) = given calls ++ (next.gives (given calls).length).toList := by
  rw [length_given]
  cases next <;> simp [given, gives, listened?, List.zipIdx_append]

theorem getElem?_given_id (h : listener ∈ given calls) :
    (given calls)[listener.id]? = some listener := by
  obtain ⟨number, hget⟩ := List.getElem?_of_mem h
  have hid : listener.id = number := by
    simp only [given, List.getElem?_map, List.getElem?_zipIdx, Nat.zero_add,
      Option.map_eq_some_iff] at hget
    obtain ⟨-, ⟨key, -, rfl⟩, rfl⟩ := hget
    rfl
  rw [hid, hget]

theorem id_lt_of_mem_given (h : listener ∈ given calls) : listener.id < (given calls).length :=
  (List.getElem?_eq_some_iff.mp (getElem?_given_id h)).1

/-- A handle is told by its number. -/
theorem eq_of_id_eq (h : listener ∈ given calls) (hother : other ∈ given calls)
    (hid : listener.id = other.id) : listener = other := by
  have hget := getElem?_given_id h
  rw [hid, getElem?_given_id hother] at hget
  exact (Option.some.inj hget).symm

/-! ### Handles that were reached -/

/-- Where a call is found in a longer history: at its end, or where it was before. -/
theorem split_concat {call : NotifierCall κ} {before after : List (NotifierCall κ)}
    (h : calls ++ [next] = before ++ call :: after) :
    after = [] ∨ ∃ rest, after = rest ++ [next] ∧ calls = before ++ call :: rest := by
  rcases List.eq_nil_or_concat' after with rfl | ⟨rest, last, rfl⟩
  · exact .inl rfl
  · have hsplit : calls ++ [next] = (before ++ call :: rest) ++ [last] := by
      simpa using h
    obtain ⟨hcalls, hlast⟩ := List.append_inj' hsplit rfl
    obtain rfl := List.singleton_inj.mp hlast
    exact .inr ⟨rest, rfl, hcalls⟩

theorem exists_registration (h : listener ∈ given calls) :
    ∃ before after, calls = before ++ .listen listener.key :: after ∧
      (given before).length = listener.id := by
  induction calls using List.reverseRecOn with
  | nil => cases h
  | append_singleton calls last ih =>
    rw [given_concat, List.mem_append] at h
    rcases h with hearlier | hlast
    · obtain ⟨before, after, rfl, hnumber⟩ := ih hearlier
      exact ⟨before, after ++ [last], by simp, hnumber⟩
    · cases last with
      | listen key =>
        obtain rfl : listener = ⟨key, (given calls).length⟩ := by simpa [gives] using hlast
        exact ⟨calls, [], rfl, rfl⟩
      | notify | notifyWhere | drop => simp [gives] at hlast

variable [DecidableEq κ]

/-- One more call reaches the handles that it signals. -/
theorem reachedSince_concat_iff (h : listener ∈ given calls) :
    ReachedSince (calls ++ [next]) listener ↔
      ReachedSince calls listener ∨ next.reaches listener.key = true := by
  constructor
  · rintro ⟨before, after, hsplit, hnumber, call, hcall, hreaches⟩
    rcases split_concat hsplit with rfl | ⟨rest, rfl, rfl⟩
    · cases hcall
    · rcases List.mem_append.mp hcall with hrest | hlast
      · exact .inl ⟨before, rest, rfl, hnumber, call, hrest, hreaches⟩
      · obtain rfl := List.mem_singleton.mp hlast
        exact .inr hreaches
  · rintro (⟨before, after, rfl, hnumber, call, hcall, hreaches⟩ | hreaches)
    · exact ⟨before, after ++ [next], by simp, hnumber, call,
        List.mem_append_left [next] hcall, hreaches⟩
    · obtain ⟨before, after, rfl, hnumber⟩ := exists_registration h
      exact ⟨before, after ++ [next], by simp, hnumber, next,
        List.mem_append_right after (List.mem_singleton_self next), hreaches⟩

/-- A handle was not reached before it was given out. -/
theorem not_reachedSince_listen (calls : List (NotifierCall κ)) (key : κ) :
    ¬ ReachedSince (calls ++ [.listen key]) ⟨key, (given calls).length⟩ := by
  rintro ⟨before, after, hsplit, hnumber, call, hcall, -⟩
  rcases split_concat hsplit with rfl | ⟨rest, rfl, hcalls⟩
  · cases hcall
  · -- then the handle with this number was given out before
    have hlength : (given before).length < (given calls).length := by
      rw [hcalls]
      simp [length_given, listened?]
    exact Nat.ne_of_lt hlength hnumber

/-! ### Handles that are held -/

theorem mem_held_iff :
    listener ∈ held calls ↔ listener ∈ given calls ∧ listener ∉ calls.filterMap dropped? := by
  simp only [held, List.mem_filter, decide_eq_true_iff]

theorem Proper.dropped_subset (h : Proper calls) : calls.filterMap dropped? ⊆ given calls := by
  induction h with
  | nil => exact List.nil_subset _
  | @call calls next _ hdrop ih =>
    rw [List.filterMap_append, given_concat]
    intro listener hdropped
    rw [List.mem_append] at hdropped ⊢
    left
    rcases hdropped with hearlier | hlast
    · exact ih hearlier
    · obtain ⟨last, hmem, hnext⟩ := List.mem_filterMap.mp hlast
      obtain rfl := List.mem_singleton.mp hmem
      have hlast' : last = .drop listener := by
        cases last <;> simp_all [dropped?]
      exact (mem_held_iff.mp (hdrop listener hlast')).1

theorem held_concat (h : Proper calls) (next : NotifierCall κ) :
    held (calls ++ [next]) = ((held calls).filter fun l => next.dropped? ≠ some l) ++
      (next.gives (given calls).length).toList := by
  have hnew : ∀ l, next.gives (given calls).length = some l →
      l ∉ (calls ++ [next]).filterMap dropped? := by
    intro l hgives hdropped
    cases next with
    | listen key =>
      obtain rfl := Option.some.inj hgives
      have hgiven : ⟨key, (given calls).length⟩ ∈ given calls :=
        h.dropped_subset (by simpa [dropped?] using hdropped)
      exact Nat.lt_irrefl _ (id_lt_of_mem_given hgiven)
    | notify | notifyWhere | drop => cases hgives
  rw [held, given_concat, List.filter_append, held, List.filter_filter]
  congr 1
  · refine List.filter_congr fun l _ => ?_
    have hone : l ∈ [next].filterMap dropped? ↔ next.dropped? = some l := by
      cases hdropped : next.dropped? <;> simp [hdropped, eq_comm]
    simp only [List.filterMap_append, List.mem_append, hone, not_or, ne_eq, Bool.decide_and]
    exact Bool.and_comm _ _
  · rw [List.filter_eq_self]
    intro l hl
    exact decide_eq_true (hnew l (Option.mem_toList.mp hl))

theorem held_drop (h : Proper calls) (dropped : Listener κ) :
    held (calls ++ [.drop dropped]) = (held calls).filter (· ≠ dropped) := by
  rw [held_concat h]
  simp [dropped?, gives, eq_comm]

theorem held_nodup (calls : List (NotifierCall κ)) : (held calls).Nodup := by
  refine List.Nodup.filter _ (List.Nodup.of_map Listener.id ?_)
  have hids : (given calls).map Listener.id = List.range (calls.filterMap listened?).length := by
    rw [given, List.map_map, List.range_eq_range']
    exact List.zipIdx_map_snd 0 _
  rw [hids]
  exact List.nodup_range

theorem id_ne_of_mem_held (h : listener ∈ held calls) (hother : other ∈ held calls)
    (hne : listener ≠ other) : listener.id ≠ other.id := fun hid =>
  hne (eq_of_id_eq (mem_held_iff.mp h).1 (mem_held_iff.mp hother).1 hid)

end NotifierCall

end LedgerWatch
