import Mathlib.Data.List.Basic
import LedgerWatch.Mining.Search

/-!
# What a nonce search finds

However the workers of a search take turns, and whenever the search is ended from outside, the nonce
that wins reaches the target.

## Main definitions

- `SearchMove`, `NonceSearch.play`: one interleaving of the workers
- `NonceSearch.Follows`: what a worker does next, by what it knows of the search
- `NonceSearch.advance`: the search once it has done so
- `NonceSearch.Sound`: whatever is claimed reaches the target

## Main results

- `NonceSearch.Sound.play`: a claim stays sound under every interleaving
- `Miner.reaches_of_play`: the winner reaches the target
-/

namespace LedgerWatch

/-- What may happen next in a search. -/
inductive SearchMove where
  /-- A worker makes its next step. -/
  | worker (i : Nat)
  /-- The search is ended from outside. -/
  | raiseStop
  deriving DecidableEq

namespace NonceSearch

def move (s : NonceSearch) : SearchMove → NonceSearch
  | .worker i => s.step i
  | .raiseStop => s.raiseStop

/-- The search after one interleaving of its workers. -/
def play (moves : List SearchMove) (s : NonceSearch) : NonceSearch :=
  moves.foldl move s

/-- The search once a worker has moved on. What the worker knows of it may be out of date. -/
def advance (s : NonceSearch) (i : Nat) (w : Worker) (known : NonceSearch) : NonceSearch :=
  { s with winner := s.winnerAfter w, workers := s.workers.set i (known.stepWorker w) }

theorem step_of_none {s : NonceSearch} {i : Nat} (h : s.workers[i]? = none) : s.step i = s := by
  rw [step, h]

theorem step_eq_advance {s : NonceSearch} {i : Nat} {w : Worker} (h : s.workers[i]? = some w) :
    s.step i = s.advance i w s := by
  rw [step, h, advance]

/-- Every nonce that a worker claims, or that has won, reaches the target. -/
structure Sound (head : Bytes) (target : UInt32) (s : NonceSearch) : Prop where
  head_eq : s.head = head
  target_eq : s.target = target
  claims : ∀ w ∈ s.workers, ∀ nonce, w.state = .claiming nonce → reaches head target nonce
  winner : ∀ nonce, s.winner = some nonce → reaches head target nonce

/-- A worker does not stop where it stands: it makes no check there, or knows of nothing to stop
for. -/
def GoesOn (known : NonceSearch) (w : Worker) : Prop :=
  ((w.next - w.first) % checkInterval = 0 && (known.winner.isSome || known.stop)) = false

/-- What a worker that has not stopped does next, by what it knows of the search. -/
inductive Follows (known : NonceSearch) (w : Worker) : Worker → Prop
  /-- It has made its claim. -/
  | retire {nonce : UInt64} (hstate : w.state = .claiming nonce) :
      Follows known w { w with state := .stopped }
  /-- Its range is at an end, or it knows that the search is over. -/
  | giveUp (hstate : w.state = .searching)
      (hover : w.next = w.limit ∨ known.winner.isSome = true ∨ known.stop = true) :
      Follows known w { w with state := .stopped }
  | hit (hstate : w.state = .searching) (hlimit : w.next ≠ w.limit) (hgoes : known.GoesOn w)
      (hreaches : reaches known.head known.target w.next = true) :
      Follows known w { w with state := .claiming w.next }
  | pass (hstate : w.state = .searching) (hlimit : w.next ≠ w.limit) (hgoes : known.GoesOn w)
      (hmiss : reaches known.head known.target w.next = false) :
      Follows known w { w with next := w.next + 1 }

variable {head : Bytes} {target : UInt32} {s known : NonceSearch} {w : Worker}

theorem follows_stepWorker (hmoves : w.state ≠ .stopped) :
    known.Follows w (known.stepWorker w) := by
  unfold stepWorker
  split
  next hstate => exact absurd hstate hmoves
  next nonce hstate => exact .retire hstate
  next hstate =>
    split
    next hlimit => exact .giveUp hstate (.inl hlimit)
    next hlimit =>
      split
      next hcheck =>
        simp only [Bool.and_eq_true, Bool.or_eq_true] at hcheck
        exact .giveUp hstate (.inr hcheck.2)
      next hcheck =>
        have hgoes : known.GoesOn w := eq_false_of_ne_true hcheck
        split
        next hreaches => exact .hit hstate hlimit hgoes hreaches
        next hmiss => exact .pass hstate hlimit hgoes (eq_false_of_ne_true hmiss)

/-- A worker comes to claim a nonce only if the nonce reaches the target. -/
theorem reaches_of_stepWorker {nonce : UInt64}
    (h : (known.stepWorker w).state = .claiming nonce) :
    reaches known.head known.target nonce = true := by
  by_cases hstopped : w.state = .stopped
  · simp [stepWorker, hstopped] at h
  · have hfollows : known.Follows w (known.stepWorker w) := follows_stepWorker hstopped
    generalize known.stepWorker w = after at h hfollows
    cases hfollows with
    | retire hstate => cases h
    | giveUp hstate hover => cases h
    | hit hstate hlimit hgoes hreaches =>
      obtain rfl : w.next = nonce := WorkerState.claiming.inj h
      exact hreaches
    | pass hstate hlimit hgoes hmiss => rw [hstate] at h; cases h

theorem Sound.advance (h : s.Sound head target) {i : Nat} (hw : s.workers[i]? = some w)
    (hhead : known.head = s.head) (htarget : known.target = s.target) :
    (s.advance i w known).Sound head target := by
  have hmem : w ∈ s.workers := List.mem_of_getElem? hw
  refine ⟨h.head_eq, h.target_eq, ?_, ?_⟩
  · intro v hv nonce hclaims
    rcases List.mem_or_eq_of_mem_set hv with hold | rfl
    · exact h.claims v hold nonce hclaims
    · rw [← h.head_eq, ← h.target_eq, ← hhead, ← htarget]
      exact reaches_of_stepWorker hclaims
  · intro nonce hwinner
    simp only [NonceSearch.advance, winnerAfter] at hwinner
    split at hwinner
    next claimed hstate =>
      -- the first claim stands, and a later one counts only if there is none
      rcases Option.or_eq_some_iff.mp hwinner with hold | ⟨-, hnew⟩
      · exact h.winner nonce hold
      · exact h.claims w hmem nonce (hstate.trans (congrArg _ (Option.some.inj hnew)))
    all_goals exact h.winner nonce hwinner

theorem Sound.step (h : s.Sound head target) (i : Nat) : (s.step i).Sound head target := by
  cases hw : s.workers[i]? with
  | none => rwa [step_of_none hw]
  | some w => exact step_eq_advance hw ▸ h.advance hw rfl rfl

theorem Sound.raiseStop (h : s.Sound head target) : s.raiseStop.Sound head target :=
  ⟨h.head_eq, h.target_eq, h.claims, h.winner⟩

theorem Sound.play (h : s.Sound head target) (moves : List SearchMove) :
    (s.play moves).Sound head target := by
  induction moves generalizing s with
  | nil => exact h
  | cons m moves ih =>
    cases m with
    | worker i => exact ih (h.step i)
    | raiseStop => exact ih h.raiseStop

/-- Steps of one worker until it has stopped are turns of that worker. -/
theorem exists_run_eq_play (s : NonceSearch) (i n : Nat) :
    ∃ turns : List Nat, s.run i n = s.play (turns.map .worker) := by
  induction n generalizing s with
  | zero => exact ⟨[], rfl⟩
  | succ n ih =>
    unfold run
    split
    · exact ⟨[], rfl⟩
    · obtain ⟨turns, hturns⟩ := ih (s.step i)
      exact ⟨i :: turns, hturns⟩

/-- The workers one after the other. -/
theorem exists_finish_eq_play (s : NonceSearch) :
    ∃ turns : List Nat, s.finish = s.play (turns.map .worker) := by
  unfold finish
  generalize List.range s.workers.length = workers
  induction workers generalizing s with
  | nil => exact ⟨[], rfl⟩
  | cons i workers ih =>
    obtain ⟨first, hfirst⟩ := exists_run_eq_play s i (s.stepsLeft i)
    obtain ⟨rest, hrest⟩ := ih (s.run i (s.stepsLeft i))
    refine ⟨first ++ rest, hrest.trans ?_⟩
    rw [hfirst, play, play, play, List.map_append, List.foldl_append]

theorem Sound.run (h : s.Sound head target) (i n : Nat) : (s.run i n).Sound head target := by
  obtain ⟨turns, hturns⟩ := s.exists_run_eq_play i n
  rw [hturns]
  exact h.play _

theorem Sound.finish (h : s.Sound head target) : s.finish.Sound head target := by
  obtain ⟨turns, hturns⟩ := s.exists_finish_eq_play
  rw [hturns]
  exact h.play _

end NonceSearch

namespace Miner

theorem sound_start (m : Miner) (head : Bytes) (target : UInt32) (stop : Bool) :
    (m.start head target stop).Sound head target := by
  refine ⟨rfl, rfl, ?_, by simp [start]⟩
  intro w hw nonce hclaims
  simp only [start, List.mem_map] at hw
  obtain ⟨i, -, rfl⟩ := hw
  simp at hclaims

/-- The nonce that wins reaches the target, however the workers take turns. -/
theorem reaches_of_play (m : Miner) {head : Bytes} {target : UInt32} {stop : Bool}
    {moves : List SearchMove} {nonce : UInt64}
    (h : ((m.start head target stop).play moves).winner = some nonce) :
    reaches head target nonce :=
  ((m.sound_start head target stop).play moves).winner nonce h

end Miner

end LedgerWatch
