import LedgerWatch.Proofs.Notifier
import Mathlib.Data.List.Induction

/-!
# No wait sleeps through its signal

The raisings and the waits of a signal make their steps in any order. A wait arms itself before it
looks at the mark, and a raising sets the mark before it wakes the waits. So a wait that has found
the mark not set is woken by the raising that sets it, whether it sleeps already or is only about
to.

## Main definitions

- `SignalMove`, `Signal.play`, `Signal.after`: one interleaving of raisings and waits
- `Waiter.Sleeps`, `Waiter.Unaware`: a wait that sleeps, and one that sleeps or is about to
- `Waiter.stepsLeft`: how many steps a wait makes until it returns
- `Signal.Heard`: the mark is set, and no wait is unaware of it
- `Signal.Attended`: what the waits of a signal may rely on

## Main results

- `Signal.Heard.move`, `Signal.Sound.move`: what holds of a signal is preserved by every move
- `Signal.Heard.isReturned_play_iff`: once a signal is heard, its waits return by their own steps
- `Signal.isReturned_poll_join`: a wait returns at once if the mark is set when it begins
- `Notifier.Registers.isReturned_poll_notify`: a notification wakes all waits on the listeners of
  its key
- `Signal.attended_after`: what the waits may rely on, in every interleaving

## Design notes

Moves come one after the other, and every party sees what was done before. Raisings have no numbers:
whichever of them wakes the waits, it reaches all that are armed. A wait that is given up needs no
move of its own, for it may as well make no step any more.
-/

namespace LedgerWatch

/-! ## Waits -/

namespace Waiter

/-- Asleep, and not woken. -/
def Sleeps (w : Waiter) : Prop := w = asleep false

/-- Has found the mark not set, and has not been woken since. -/
def Unaware (w : Waiter) : Prop := w = looked false ∨ w = asleep false

instance : DecidablePred Sleeps := fun w => inferInstanceAs (Decidable (w = asleep false))

instance : DecidablePred Unaware := fun w =>
  inferInstanceAs (Decidable (w = looked false ∨ w = asleep false))

/-- How many steps a wait makes until it returns, if the mark is set and it is not unaware of it. -/
def stepsLeft : Waiter → Nat
  | returned => 0
  | armed _ => 1
  | arriving => 2
  | looked _ | asleep _ => 3

variable {w : Waiter}

theorem stepsLeft_eq_zero_iff : w.stepsLeft = 0 ↔ w = returned := by
  cases w <;> simp [stepsLeft]

theorem stepsLeft_wake (w : Waiter) : w.wake.stepsLeft = w.stepsLeft := by
  cases w <;> rfl

theorem stepsLeft_advance (h : ¬w.Unaware) : (w.advance true).stepsLeft = w.stepsLeft - 1 := by
  rcases w with _ | _ | ⟨_ | _⟩ | ⟨_ | _⟩ | _ <;> simp_all [Unaware, advance, stepsLeft]

theorem not_unaware_wake (w : Waiter) : ¬w.wake.Unaware := by
  cases w <;> simp [wake, Unaware]

/-- A wait that finds the mark set does not become unaware of it. -/
theorem not_unaware_advance (h : ¬w.Unaware) : ¬(w.advance true).Unaware := by
  rcases w with _ | _ | ⟨_ | _⟩ | ⟨_ | _⟩ | _ <;> simp_all [Unaware, advance]

theorem wake_eq_returned_iff : w.wake = returned ↔ w = returned := by
  cases w <;> simp [wake]

theorem advance_eq_returned_iff {raised : Bool} :
    w.advance raised = returned ↔ w = returned ∨ raised = true ∧ ∃ woken, w = armed woken := by
  rcases w with _ | _ | ⟨_ | _⟩ | ⟨_ | _⟩ | _ <;> cases raised <;> simp [advance]

end Waiter

/-! ## Moves -/

/-- What may happen next to a signal. -/
inductive SignalMove where
  /-- A raising sets the mark. -/
  | raise
  /-- A raising that has set the mark wakes the waits. -/
  | wake
  /-- A wait begins. -/
  | join
  /-- A wait makes its next step. -/
  | advance (i : Nat)
  deriving DecidableEq

namespace Signal

def move (s : Signal) : SignalMove → Signal
  | .raise => s.raise
  | .wake => s.wake
  | .join => s.join.1
  | .advance i => s.advance i

/-- The signal after one interleaving of its raisings and waits. -/
def play (moves : List SignalMove) (s : Signal) : Signal :=
  moves.foldl move s

/-- What moves make of a new signal. -/
def after (moves : List SignalMove) : Signal :=
  play moves {}

/-- What a move makes of a wait. -/
def waitAfter (s : Signal) (i : Nat) (w : Waiter) : SignalMove → Waiter
  | .raise | .join => w
  | .wake => if s.waking = 0 then w else w.wake
  | .advance j => if i = j then w.advance s.raised else w

variable {s : Signal} {i : Nat} {w : Waiter} {m : SignalMove} {moves : List SignalMove}

theorem after_concat (moves : List SignalMove) (m : SignalMove) :
    after (moves ++ [m]) = (after moves).move m :=
  List.foldl_concat ..

theorem after_append (moves later : List SignalMove) :
    after (moves ++ later) = (after moves).play later :=
  List.foldl_append

theorem isReturned_eq_true_iff : s.isReturned i = true ↔ s.waiters[i]? = some .returned :=
  beq_iff_eq

theorem wake_of_waking (h : s.waking ≠ 0) :
    s.wake = { s with waking := s.waking - 1, waiters := s.waiters.map Waiter.wake } :=
  if_neg h

theorem wake_of_waking_eq_zero (h : s.waking = 0) : s.wake = s :=
  if_pos h

theorem raised_wake (s : Signal) : s.wake.raised = s.raised := by
  unfold wake
  split <;> rfl

theorem raised_move (s : Signal) (m : SignalMove) :
    (s.move m).raised = (s.raised || decide (m = .raise)) := by
  cases m with
  | raise => simp [move, raise]
  | wake => simp [move, raised_wake]
  | join | advance => simp [move, join, advance]

theorem waking_move (s : Signal) (m : SignalMove) :
    (s.move m).waking = match m with
      | .raise => s.waking + 1
      | .wake => s.waking - 1
      | .join | .advance _ => s.waking := by
  cases m with
  | raise | join | advance => rfl
  | wake =>
    by_cases hwaking : s.waking = 0
    · simp [move, wake_of_waking_eq_zero hwaking, hwaking]
    · rw [move, wake_of_waking hwaking]

theorem getElem?_waiters_move (h : s.waiters[i]? = some w) (m : SignalMove) :
    (s.move m).waiters[i]? = some (s.waitAfter i w m) := by
  cases m with
  | raise => exact h
  | wake =>
    by_cases hwaking : s.waking = 0
    · simpa [move, wake_of_waking_eq_zero hwaking, waitAfter, hwaking] using h
    · simp [move, wake_of_waking hwaking, waitAfter, hwaking, h]
  | join =>
    have hlt : i < s.waiters.length := (List.getElem?_eq_some_iff.mp h).1
    simpa [move, join, waitAfter, List.getElem?_append_left hlt] using h
  | advance j =>
    by_cases hij : i = j
    · subst hij
      simp [move, advance, waitAfter, h]
    · simpa [move, advance, waitAfter, hij, Ne.symm hij] using h

theorem length_waiters_move (h : m ≠ .join) : (s.move m).waiters.length = s.waiters.length := by
  cases m with
  | raise => rfl
  | wake =>
    by_cases hwaking : s.waking = 0
    · rw [move, wake_of_waking_eq_zero hwaking]
    · simp [move, wake_of_waking hwaking]
  | join => exact absurd rfl h
  | advance j => simp [move, advance]

/-- A wait that was not there before a move has just begun. -/
theorem eq_arriving_of_new (hold : s.waiters[i]? = none) (h : (s.move m).waiters[i]? = some w) :
    w = .arriving := by
  have hle : s.waiters.length ≤ i := List.getElem?_eq_none_iff.mp hold
  by_cases hm : m = .join
  · subst hm
    rw [show (s.move .join).waiters = s.waiters ++ [.arriving] from rfl,
      List.getElem?_append_right hle] at h
    exact List.mem_singleton.mp (List.mem_of_getElem? h)
  · have hlt := (List.getElem?_eq_some_iff.mp h).1
    rw [length_waiters_move hm] at hlt
    exact absurd hlt (Nat.not_lt.mpr hle)

/-- The waits after a move are those before it, and perhaps one that has just begun. -/
theorem exists_of_mem_waiters_move (h : w ∈ (s.move m).waiters) :
    w = .arriving ∨ ∃ i old, s.waiters[i]? = some old ∧ w = s.waitAfter i old m := by
  obtain ⟨i, hi⟩ := List.mem_iff_getElem?.mp h
  cases hold : s.waiters[i]? with
  | none => exact .inl (eq_arriving_of_new hold hi)
  | some old =>
    rw [getElem?_waiters_move hold] at hi
    exact .inr ⟨i, old, hold, (Option.some.inj hi).symm⟩

theorem waitAfter_eq_returned_iff : s.waitAfter i w m = .returned ↔
    w = .returned ∨ m = .advance i ∧ s.raised = true ∧ ∃ woken, w = .armed woken := by
  cases m with
  | raise | join => simp [waitAfter]
  | wake =>
    by_cases hwaking : s.waking = 0
    · simp [waitAfter, hwaking]
    · simp [waitAfter, hwaking, Waiter.wake_eq_returned_iff]
  | advance j =>
    by_cases hij : i = j
    · simp [waitAfter, hij, Waiter.advance_eq_returned_iff]
    · simp [waitAfter, hij, Ne.symm hij]

/-- A wait returns by a step of its own that finds the mark set. -/
theorem isReturned_move_iff : (s.move m).isReturned i = true ↔ s.isReturned i = true ∨
    m = .advance i ∧ s.raised = true ∧ ∃ woken, s.waiters[i]? = some (.armed woken) := by
  rw [isReturned_eq_true_iff, isReturned_eq_true_iff]
  cases hw : s.waiters[i]? with
  | none =>
    constructor
    · intro hreturned
      cases eq_arriving_of_new hw hreturned
    · simp
  | some w =>
    rw [getElem?_waiters_move hw, Option.some_inj, waitAfter_eq_returned_iff]
    simp only [Option.some_inj]

/-! ## Signals that are heard -/

/-- The mark is set, and no wait is unaware of it. -/
structure Heard (s : Signal) : Prop where
  raised : s.raised = true
  aware : ∀ w ∈ s.waiters, ¬w.Unaware

/-- A raising is heard when it wakes the waits. -/
theorem heard_wake (hraised : s.raised = true) (hwaking : s.waking ≠ 0) : s.wake.Heard where
  raised := (raised_wake s).trans hraised
  aware := by
    rw [wake_of_waking hwaking]
    intro w hw
    obtain ⟨old, -, rfl⟩ := List.mem_map.mp hw
    exact Waiter.not_unaware_wake old

theorem heard_fire (s : Signal) : s.fire.Heard :=
  heard_wake rfl (Nat.succ_ne_zero s.waking)

theorem Heard.not_unaware_waitAfter (h : s.Heard) (hw : ¬w.Unaware) (i : Nat) (m : SignalMove) :
    ¬(s.waitAfter i w m).Unaware := by
  cases m with
  | raise | join => exact hw
  | wake =>
    rw [waitAfter]
    split
    · exact hw
    · exact Waiter.not_unaware_wake w
  | advance j =>
    rw [waitAfter, h.raised]
    split
    · exact Waiter.not_unaware_advance hw
    · exact hw

/-- What is heard stays heard, whoever moves. -/
theorem Heard.move (h : s.Heard) (m : SignalMove) : (s.move m).Heard where
  raised := by rw [raised_move, h.raised, Bool.true_or]
  aware w hw := by
    rcases exists_of_mem_waiters_move hw with rfl | ⟨i, old, hold, rfl⟩
    · decide
    · exact h.not_unaware_waitAfter (h.aware old (List.mem_of_getElem? hold)) i m

/-- A move brings a wait one step further if it is its own, and does not throw it back. -/
theorem Heard.stepsLeft_waitAfter (h : s.Heard) (hw : ¬w.Unaware) (i : Nat) (m : SignalMove) :
    (s.waitAfter i w m).stepsLeft = w.stepsLeft - [m].count (.advance i) := by
  cases m with
  | raise | join => rfl
  | wake =>
    rw [waitAfter]
    split
    · rfl
    · exact Waiter.stepsLeft_wake w
  | advance j =>
    by_cases hij : i = j
    · simp [waitAfter, hij, h.raised, Waiter.stepsLeft_advance hw]
    · simp [waitAfter, hij, Ne.symm hij]

theorem Heard.exists_waiter_play (h : s.Heard) (hw : s.waiters[i]? = some w)
    (moves : List SignalMove) : ∃ w', (s.play moves).waiters[i]? = some w' ∧
      w'.stepsLeft = w.stepsLeft - moves.count (.advance i) := by
  induction moves generalizing s w with
  | nil => exact ⟨w, hw, rfl⟩
  | cons m moves ih =>
    obtain ⟨w', hw', hsteps⟩ := ih (h.move m) (getElem?_waiters_move hw m)
    refine ⟨w', hw', ?_⟩
    rw [hsteps, h.stepsLeft_waitAfter (h.aware w (List.mem_of_getElem? hw)), Nat.sub_sub,
      ← List.count_append, List.singleton_append]

/-- Once a signal is heard, a wait returns with the last of its steps, and others have no part in
it. -/
theorem Heard.isReturned_play_iff (h : s.Heard) (hw : s.waiters[i]? = some w)
    (moves : List SignalMove) :
    (s.play moves).isReturned i = true ↔ w.stepsLeft ≤ moves.count (.advance i) := by
  obtain ⟨w', hw', hsteps⟩ := h.exists_waiter_play hw moves
  rw [isReturned_eq_true_iff, hw', Option.some_inj, ← Waiter.stepsLeft_eq_zero_iff, hsteps,
    Nat.sub_eq_zero_iff_le]

/-! ## What holds of every signal -/

/-- What holds of a signal whatever its raisings and waits do. -/
structure Sound (s : Signal) : Prop where
  marked : s.waking ≠ 0 → s.raised = true
  heard : s.raised = true → s.waking = 0 → s.Heard
  returned : ∀ i, s.isReturned i = true → s.raised = true

theorem sound_new : ({} : Signal).Sound := by
  constructor <;> simp [isReturned]

theorem Sound.wake (h : s.Sound) : s.wake.Sound := by
  by_cases hwaking : s.waking = 0
  · rwa [wake_of_waking_eq_zero hwaking]
  · have hheard := heard_wake (h.marked hwaking) hwaking
    exact ⟨fun _ => hheard.raised, fun _ _ => hheard, fun _ _ => hheard.raised⟩

theorem Sound.returned_move (h : s.Sound) (m : SignalMove) (i : Nat)
    (hi : (s.move m).isReturned i = true) : (s.move m).raised = true := by
  have hraised : s.raised = true := by
    rcases isReturned_move_iff.mp hi with hbefore | ⟨-, hraised, -⟩
    · exact h.returned i hbefore
    · exact hraised
  rw [raised_move, hraised, Bool.true_or]

/-- A raising that is half way keeps a signal from being heard until it wakes the waits, and what is
heard stays heard. -/
theorem Sound.move (h : s.Sound) (m : SignalMove) : (s.move m).Sound := by
  cases m with
  | raise =>
    exact ⟨fun _ => rfl, fun _ hnone => absurd hnone (Nat.succ_ne_zero _), h.returned_move .raise⟩
  | wake => exact h.wake
  -- the mark and the raisings are as they were
  | join =>
    exact ⟨h.marked, fun hraised hnone => (h.heard hraised hnone).move .join,
      h.returned_move .join⟩
  | advance i =>
    exact ⟨h.marked, fun hraised hnone => (h.heard hraised hnone).move (.advance i),
      h.returned_move (.advance i)⟩

theorem sound_after (moves : List SignalMove) : (after moves).Sound :=
  List.foldlRecOn moves move sound_new fun _ hsound m _ => hsound.move m

/-- The mark is set once a raising has begun. -/
theorem raised_after_iff (moves : List SignalMove) :
    (after moves).raised = true ↔ .raise ∈ moves := by
  induction moves using List.reverseRecOn with
  | nil => simp [after, play]
  | append_singleton moves m ih =>
    rw [after_concat, raised_move, Bool.or_eq_true, ih, decide_eq_true_iff, List.mem_append,
      List.mem_singleton, eq_comm]

/-- If every wake-up belongs to a raising, those are half way that have begun and have not ended. -/
theorem waking_after_add_count (h : ∀ before, before <+: moves →
    before.count .wake ≤ before.count .raise) :
    (after moves).waking + moves.count .wake = moves.count .raise := by
  induction moves using List.reverseRecOn with
  | nil => rfl
  | append_singleton moves m ih =>
    have hcount := ih fun before hbefore => h before (hbefore.trans (List.prefix_append ..))
    have hlast := h _ List.prefix_rfl
    rw [List.count_append, List.count_append] at hlast ⊢
    rw [after_concat, waking_move]
    cases m with
    | raise | wake =>
      simp only [List.count_singleton_self, List.count_singleton, beq_iff_eq, reduceCtorEq,
        if_false] at hlast ⊢
      omega
    | join | advance => simpa using hcount

/-! ## Waits that are polled -/

/-- A poll brings a wait to its end if the mark is set and the wait is not unaware of it, and to
sleep otherwise. -/
theorem getElem?_waiters_poll (h : s.waiters[i]? = some w) : (s.poll i).waiters[i]? =
    some (if w = .returned ∨ s.raised = true ∧ ¬w.Unaware then .returned else .asleep false) := by
  have hadvance : ∀ s : Signal, (s.advance i).waiters[i]? =
      (s.waiters[i]?).map (Waiter.advance s.raised) := by simp [advance]
  have hraised : ∀ s : Signal, (s.advance i).raised = s.raised := fun _ => rfl
  simp only [poll, Nat.repeat, hadvance, hraised, h, Option.map_some, Option.some_inj]
  cases s.raised <;> rcases w with _ | ⟨_ | _⟩ | ⟨_ | _⟩ | ⟨_ | _⟩ | _ <;> rfl

/-- A wait returns at once if the mark is set when it begins, and only then. -/
theorem isReturned_poll_join (s : Signal) :
    (s.join.1.poll s.join.2).isReturned s.join.2 = s.raised := by
  have hnew : s.join.1.waiters[s.join.2]? = some .arriving := List.getElem?_concat_length
  have hraised : s.join.1.raised = s.raised := rfl
  rw [isReturned, getElem?_waiters_poll hnew, hraised]
  cases s.raised <;> rfl

theorem Heard.isReturned_poll (h : s.Heard) (hi : i < s.waiters.length) :
    (s.poll i).isReturned i = true := by
  have haware := h.aware _ (List.getElem_mem hi)
  rw [isReturned_eq_true_iff, getElem?_waiters_poll (List.getElem?_eq_getElem hi),
    if_pos (.inr ⟨h.raised, haware⟩)]

end Signal

/-! ## Waits of a listener -/

section Notified

variable {κ : Type} {n : Notifier κ} {id : Nat}

/-- A signal that is heard stays heard when listeners are signalled. -/
theorem Signal.Heard.signal_fire (h : (n.signal id).Heard) (ids : List Nat) :
    ((n.fire ids).1.signal id).Heard := by
  induction ids generalizing n with
  | nil => exact h
  | cons first rest ih =>
    refine @ih (n.modifySignal first Signal.fire) ?_
    rw [Notifier.signal, Notifier.lookup_modifySignal]
    cases hlookup : n.signals.lookup id with
    | none =>
      -- a number without a signal is read as one that was never raised
      have hraised := h.raised
      rw [Notifier.signal, hlookup] at hraised
      cases hraised
    | some s =>
      rw [Notifier.signal, hlookup] at h
      by_cases hid : id = first
      · simpa [hid] using s.heard_fire
      · simpa [hid] using h

/-- The signals of listeners are heard once these are signalled. -/
theorem Notifier.heard_fire {ids : List Nat} (hid : id ∈ ids)
    (hsome : (n.signals.lookup id).isSome) : ((n.fire ids).1.signal id).Heard := by
  induction ids generalizing n with
  | nil => cases hid
  | cons first rest ih =>
    obtain ⟨s, hs⟩ := Option.isSome_iff_exists.mp hsome
    have hlookup := lookup_modifySignal first id Signal.fire n
    rw [hs] at hlookup
    show (((n.modifySignal first Signal.fire).fire rest).1.signal id).Heard
    by_cases heq : id = first
    · refine Signal.Heard.signal_fire ?_ rest
      rw [signal, hlookup]
      simpa [heq] using s.heard_fire
    · refine ih ((List.mem_cons.mp hid).resolve_left heq) ?_
      rw [hlookup]
      rfl

variable [DecidableEq κ]

/-- A notification wakes all waits on the listeners of its key. -/
theorem Notifier.Registers.isReturned_poll_notify {listener : Listener κ}
    (h : n.Registers listener) {i : Nat}
    (hi : i < ((n.notify listener.key).1.signal listener.id).waiters.length) :
    (((n.notify listener.key).1.signal listener.id).poll i).isReturned i = true :=
  (Notifier.heard_fire h.listed h.signalled).isReturned_poll hi

end Notified

/-! ## What waits may rely on -/

namespace Signal

/-- What the waits of a signal may rely on after some moves. -/
structure Attended (moves : List SignalMove) : Prop where
  /-- The mark is set once a raising has begun. -/
  raised_iff : (after moves).raised = true ↔ .raise ∈ moves
  /-- Those raisings are half way that have begun and have not ended. -/
  halfway : (∀ before, before <+: moves → before.count .wake ≤ before.count .raise) →
    (after moves).waking + moves.count .wake = moves.count .raise
  /-- No wait sleeps while the mark is set and no raising is half way. -/
  awake : (after moves).raised = true → (after moves).waking = 0 →
    ∀ w ∈ (after moves).waiters, ¬w.Sleeps
  /-- A wait has returned only if the mark is set. -/
  returned : ∀ i, (after moves).isReturned i = true → (after moves).raised = true
  /-- A wait returns by a step of its own, when it is armed and finds the mark set. -/
  returned_iff : ∀ m i, (after (moves ++ [m])).isReturned i = true ↔
    (after moves).isReturned i = true ∨
      m = .advance i ∧ (after moves).raised = true ∧
        ∃ woken, (after moves).waiters[i]? = some (.armed woken)
  /-- Once the mark is set and no raising is half way, every wait returns after as many steps as it
  has left, whatever else happens. -/
  prompt : (after moves).raised = true → (after moves).waking = 0 →
    ∀ i w, (after moves).waiters[i]? = some w → ∀ later,
      (after (moves ++ later)).isReturned i = true ↔ w.stepsLeft ≤ later.count (.advance i)

/-- However raisings and waits take turns, no wait sleeps through the signal, and none returns
without it. -/
theorem attended_after (moves : List SignalMove) : Attended moves := by
  have hsound := sound_after moves
  constructor
  case raised_iff => exact raised_after_iff moves
  case halfway => exact waking_after_add_count
  case awake =>
    intro hraised hnone w hw hsleeps
    exact (hsound.heard hraised hnone).aware w hw (.inr hsleeps)
  case returned => exact hsound.returned
  case returned_iff =>
    intro m i
    rw [after_concat]
    exact isReturned_move_iff
  case prompt =>
    intro hraised hnone i w hw later
    rw [after_append]
    exact (hsound.heard hraised hnone).isReturned_play_iff hw later

/-- One wait sleeps and another has looked when a raising sets the mark, and the second goes to
sleep then. -/
def lateSleep : List SignalMove :=
  [.join, .join, .advance 0, .advance 0, .advance 0, .advance 1, .advance 1, .raise, .advance 1]

/-- Another raising begins before the first wakes the waits. -/
def lateSleepWoken : List SignalMove :=
  lateSleep ++ [.raise, .wake, .wake]

theorem attended_after_lateSleepWoken :
    (after lateSleep).raised = true ∧ (after lateSleep).waking = 1 ∧
      (after lateSleep).waiters = [.asleep false, .asleep false] ∧
      (after lateSleepWoken).raised = true ∧ (after lateSleepWoken).waking = 0 ∧
      Attended lateSleepWoken ∧ (∀ w ∈ (after lateSleepWoken).waiters, ¬w.Sleeps) ∧
      (after (lateSleepWoken ++ [.advance 1, .advance 1, .advance 1])).isReturned 1 = true := by
  have hattended := attended_after lateSleepWoken
  have hraised : (after lateSleepWoken).raised = true := hattended.raised_iff.mpr (by decide)
  have hnone : (after lateSleepWoken).waking = 0 := by decide
  have hwoken : (after lateSleepWoken).waiters[1]? = some (.asleep true) := by decide
  refine ⟨by decide, by decide, by decide, hraised, hnone, hattended, ?_, ?_⟩
  · exact hattended.awake hraised hnone
  · exact (hattended.prompt hraised hnone 1 _ hwoken _).mpr (by decide)

end Signal

end LedgerWatch
