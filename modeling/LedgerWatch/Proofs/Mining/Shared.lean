import LedgerWatch.Proofs.Mining.Search
import Mathlib.Algebra.GroupWithZero.Nat
import Mathlib.Logic.Relation
import Mathlib.Order.WellFounded

/-!
# Workers that share a search

The workers of a search share two flags and a cell. The first claim raises the flag that ends the
search, and the worker that made it writes its nonce into the cell afterwards. A worker reads the
flags every few thousand nonces only, and what it reads may be out of date; a claim is settled on
the flag itself. The cell is read when all workers have stopped.

## Main definitions

- `SharedSearch`, `SharedSearch.Step`, `SharedSearch.Leads`: the steps, in any order
- `SharedSearch.Finished`, `SharedSearch.outcome`: the end of a search and what it has found
- `NonceSearch.shared`: a search in which every claim is in the cell at once

## Main results

- `SharedSearch.wellFounded_step`, `SharedSearch.exists_step`: every search comes to its end
- `NonceSearch.leads_play`: workers that know all and write at once are one way to share a search
- `Miner.mine_is_outcome`: so are workers that run one after the other
-/

namespace LedgerWatch

/-- A search as its workers share it. That there is a winner is the flag raised by the first claim;
which nonce it is nobody reads but from the cell. -/
structure SharedSearch where
  search : NonceSearch
  /-- The nonce claimed first, until it is in the cell. -/
  unwritten : Option UInt64 := none
  cell : UInt64 := 0

/-- The search as a worker sees it that may have missed the first claim, or the stop. -/
def NonceSearch.seenAs (s : NonceSearch) (found stop : Bool) : NonceSearch :=
  { s with winner := if found then s.winner else none, stop }

namespace SharedSearch

/-- The nonce still to be written once a worker has moved on. -/
def unwrittenAfter (s : SharedSearch) (w : Worker) : Option UInt64 :=
  match w.state with
  | .claiming nonce => if s.search.winner.isSome then s.unwritten else some nonce
  | .searching | .stopped => s.unwritten

def advance (s : SharedSearch) (i : Nat) (w : Worker) (found stop : Bool) : SharedSearch :=
  { s with
    search := s.search.advance i w (s.search.seenAs found stop)
    unwritten := s.unwrittenAfter w }

/-- One step of a search that was stopped before it began, or was not. A worker may miss a stop, but
none that came before the workers. -/
inductive Step (early : Bool) : SharedSearch → SharedSearch → Prop
  | worker {s : SharedSearch} {i : Nat} {w : Worker} {found stop : Bool}
      (hw : s.search.workers[i]? = some w) (hmoves : w.state ≠ .stopped)
      (hstop : stop = true → s.search.stop = true) (hearly : early = true → stop = true) :
      Step early s (s.advance i w found stop)
  | write {s : SharedSearch} {nonce : UInt64} (h : s.unwritten = some nonce) :
      Step early s { s with unwritten := none, cell := nonce }
  | raiseStop {s : SharedSearch} (h : s.search.stop = false) :
      Step early s { s with search := s.search.raiseStop }

/-- What steps in any order may lead to. -/
def Leads (early : Bool) : SharedSearch → SharedSearch → Prop :=
  Relation.ReflTransGen (Step early)

/-- All workers have stopped, and the nonce of the first claim is written. -/
structure Finished (s : SharedSearch) : Prop where
  stopped : ∀ w ∈ s.search.workers, w.state = .stopped
  written : s.unwritten = none

/-- What is read once all workers have stopped. -/
def outcome (s : SharedSearch) : Option UInt64 :=
  if s.search.winner.isSome then some s.cell else none

end SharedSearch

/-! ## Every search comes to its end -/

/-- The steps that a worker may still make, and one more for the cell. -/
def Worker.work (w : Worker) : Nat :=
  match w.state with
  | .stopped => 0
  | .claiming _ => 2
  | .searching => (w.limit - w.next).toNat + 2

theorem toNat_sub_succ {limit next : UInt64} (h : next ≠ limit) :
    (limit - (next + 1)).toNat + 1 = (limit - next).toNat := by
  have hne : next.toNat ≠ limit.toNat := fun h' => h (UInt64.toNat_inj.mp h')
  have hlimit := limit.toNat_lt
  have hnext := next.toNat_lt
  simp only [UInt64.toNat_sub, UInt64.toNat_add, UInt64.toNat_one]
  omega

/-- Whatever it knows of the search, a worker that moves has less to do afterwards. -/
theorem NonceSearch.Follows.work_lt {known : NonceSearch} {w after : Worker}
    (h : known.Follows w after) : after.work < w.work := by
  cases h with
  | retire hstate => simp [Worker.work, hstate]
  | giveUp hstate hover => simp [Worker.work, hstate]
  | hit hstate hlimit hgoes hreaches =>
    have hleft := toNat_sub_succ hlimit
    simp only [Worker.work, hstate]
    omega
  | pass hstate hlimit hgoes hmiss =>
    have hleft := toNat_sub_succ hlimit
    simp only [Worker.work, hstate]
    omega

/-- A claim leaves a worker with nothing to do. -/
theorem NonceSearch.work_stepWorker_claiming (known : NonceSearch) {w : Worker} {nonce : UInt64}
    (h : w.state = .claiming nonce) : (known.stepWorker w).work + 2 = w.work := by
  simp [stepWorker, Worker.work, h]

theorem sum_map_set {α : Type} (f : α → Nat) {l : List α} {i : Nat} {a : α} (b : α)
    (h : l[i]? = some a) : ((l.set i b).map f).sum + f a = (l.map f).sum + f b := by
  induction l generalizing i with
  | nil => simp at h
  | cons x l ih =>
    cases i with
    | zero =>
      obtain rfl : x = a := by simpa using h
      simp only [List.set_cons_zero, List.map_cons, List.sum_cons]
      omega
    | succ i =>
      have := ih (i := i) (by simpa using h)
      simp only [List.set_cons_succ, List.map_cons, List.sum_cons]
      omega

namespace SharedSearch

/-- The steps that are left at most: those of the workers, the write and the stop. -/
def work (s : SharedSearch) : Nat :=
  (s.search.workers.map Worker.work).sum + s.unwritten.isSome.toNat + (!s.search.stop).toNat

theorem Step.work_lt {early : Bool} {before after : SharedSearch} (h : Step early before after) :
    after.work < before.work := by
  cases h with
  | @worker i w found stop hw hmoves hstop hearly =>
    have hsum := sum_map_set Worker.work ((before.search.seenAs found stop).stepWorker w) hw
    have hfollows : (before.search.seenAs found stop).Follows w _ :=
      NonceSearch.follows_stepWorker hmoves
    have hlt := hfollows.work_lt
    -- only a claim adds work, namely the write, and it takes two steps off its worker
    by_cases hclaims : ∃ nonce, w.state = .claiming nonce
    · obtain ⟨nonce, hstate⟩ := hclaims
      have htwo := NonceSearch.work_stepWorker_claiming (before.search.seenAs found stop) hstate
      have hone := Bool.toNat_le (before.unwrittenAfter w).isSome
      simp only [work, advance, NonceSearch.advance]
      omega
    · have hsame : before.unwrittenAfter w = before.unwritten := by
        unfold unwrittenAfter
        split
        next nonce hstate => exact absurd ⟨nonce, hstate⟩ hclaims
        all_goals rfl
      simp only [work, advance, NonceSearch.advance, hsame]
      omega
  | write h => simp [work, h]
  | raiseStop h => simp [work, NonceSearch.raiseStop, h]

/-- No search goes on for ever. -/
theorem wellFounded_step (early : Bool) :
    WellFounded fun after before : SharedSearch => Step early before after :=
  (InvImage.wf work wellFounded_lt).mono fun _ _ h => h.work_lt

/-- A search that has not finished can go on by itself. -/
theorem exists_step {early : Bool} {s : SharedSearch} (hearly : early = true → s.search.stop = true)
    (h : ¬ s.Finished) : ∃ after, Step early s after ∧ after.search.stop = s.search.stop := by
  by_cases hstopped : ∀ w ∈ s.search.workers, w.state = .stopped
  · cases hunwritten : s.unwritten with
    | none => exact absurd ⟨hstopped, hunwritten⟩ h
    | some nonce => exact ⟨_, .write hunwritten, rfl⟩
  · obtain ⟨w, hmem, hmoves⟩ : ∃ w ∈ s.search.workers, w.state ≠ .stopped := by
      simpa using hstopped
    obtain ⟨i, hw⟩ := List.mem_iff_getElem?.mp hmem
    have hstep : Step early s (s.advance i w true s.search.stop) := .worker hw hmoves id hearly
    exact ⟨_, hstep, rfl⟩

end SharedSearch

/-! ## Workers that know all -/

section KnowAll

variable {early : Bool} {s : NonceSearch}

/-- The search in which every claim is in the cell at once. -/
def NonceSearch.shared (s : NonceSearch) : SharedSearch where
  search := s
  cell := s.winner.getD 0

theorem NonceSearch.outcome_shared (s : NonceSearch) : s.shared.outcome = s.winner := by
  cases h : s.winner <;> simp [shared, SharedSearch.outcome, h]

theorem NonceSearch.stop_step (s : NonceSearch) (i : Nat) : (s.step i).stop = s.stop := by
  unfold step
  split <;> rfl

theorem NonceSearch.step_of_stopped {i : Nat} {w : Worker} (hw : s.workers[i]? = some w)
    (h : w.state = .stopped) : s.step i = s := by
  have hsame : s.stepWorker w = w := by rw [stepWorker, h]
  have hset : s.workers.set i w = s.workers := by
    obtain ⟨hlt, rfl⟩ := List.getElem?_eq_some_iff.mp hw
    exact List.set_getElem_self hlt
  rw [step_eq_advance hw, advance, hsame, hset, winnerAfter, h]

/-- A worker that knows all sees the search as it is. -/
theorem NonceSearch.seenAs_self (s : NonceSearch) : s.seenAs true s.stop = s := rfl

/-- A worker that knows all makes its step, and writes its nonce at once if it has won by it. -/
theorem NonceSearch.leads_step (hearly : early = true → s.stop = true) (i : Nat) :
    SharedSearch.Leads early s.shared (s.step i).shared := by
  cases hw : s.workers[i]? with
  | none =>
    rw [step_of_none hw]
    exact .refl
  | some w =>
    by_cases hstopped : w.state = .stopped
    · rw [step_of_stopped hw hstopped]
      exact .refl
    · have hstep : SharedSearch.Step early s.shared (s.shared.advance i w true s.stop) :=
        .worker hw hstopped id hearly
      rw [step_eq_advance hw]
      cases hstate : w.state with
      | stopped => exact absurd hstate hstopped
      | searching =>
        have hshared : (s.advance i w s).shared = s.shared.advance i w true s.stop := by
          simp [shared, SharedSearch.advance, SharedSearch.unwrittenAfter, advance, winnerAfter,
            seenAs_self, hstate]
        exact hshared ▸ .single hstep
      | claiming nonce =>
        cases hheld : s.winner with
        | some held =>
          have hshared : (s.advance i w s).shared = s.shared.advance i w true s.stop := by
            simp [shared, SharedSearch.advance, SharedSearch.unwrittenAfter, advance, winnerAfter,
              seenAs_self, hstate, hheld]
          exact hshared ▸ .single hstep
        | none =>
          have hunwritten : (s.shared.advance i w true s.stop).unwritten = some nonce := by
            simp [shared, SharedSearch.advance, SharedSearch.unwrittenAfter, hstate, hheld]
          have hshared : (s.advance i w s).shared =
              { s.shared.advance i w true s.stop with unwritten := none, cell := nonce } := by
            simp [shared, SharedSearch.advance, advance, winnerAfter, seenAs_self, hstate, hheld]
          exact hshared ▸ .tail (.single hstep) (.write hunwritten)

theorem NonceSearch.leads_raiseStop : SharedSearch.Leads early s.shared s.raiseStop.shared := by
  cases hstop : s.stop with
  | true =>
    have hsame : s.raiseStop = s := by simp [raiseStop, ← hstop]
    rw [hsame]
    exact .refl
  | false => exact .single (.raiseStop hstop)

/-- Workers that know all and write at once take turns in the order of the moves. -/
theorem NonceSearch.leads_play (hearly : early = true → s.stop = true) (moves : List SearchMove) :
    SharedSearch.Leads early s.shared (s.play moves).shared := by
  induction moves generalizing s with
  | nil => exact .refl
  | cons m moves ih =>
    cases m with
    | worker i =>
      have hnext : early = true → (s.step i).stop = true := fun h => by rw [stop_step, hearly h]
      exact (leads_step hearly i).trans (ih hnext)
    | raiseStop => exact leads_raiseStop.trans (ih fun _ => rfl)

end KnowAll

/-! ## Workers one after the other -/

namespace NonceSearch

variable {s : NonceSearch}

theorem workers_step_self {i : Nat} {w : Worker} (hw : s.workers[i]? = some w) :
    (s.step i).workers[i]? = some (s.stepWorker w) := by
  obtain ⟨hlt, -⟩ := List.getElem?_eq_some_iff.mp hw
  rw [step_eq_advance hw, advance, List.getElem?_set_self hlt]

theorem workers_step_of_ne {i j : Nat} (h : i ≠ j) : (s.step i).workers[j]? = s.workers[j]? := by
  unfold step
  split
  · rfl
  · exact List.getElem?_set_ne h

theorem length_step (i : Nat) : (s.step i).workers.length = s.workers.length := by
  unfold step
  split
  · rfl
  · exact List.length_set

theorem isStopped_iff {i : Nat} :
    s.isStopped i = true ↔ ∀ w, s.workers[i]? = some w → w.state = .stopped := by
  unfold isStopped
  split
  next h => simp [h]
  next w h => simp [h]

/-- Workers that have stopped stay so. -/
theorem isStopped_step {j : Nat} (h : s.isStopped j = true) (i : Nat) :
    (s.step i).isStopped j = true := by
  by_cases hij : i = j
  · subst hij
    cases hw : s.workers[i]? with
    | none => rwa [step_of_none hw]
    | some w => rwa [step_of_stopped hw (isStopped_iff.mp h w hw)]
  · rw [isStopped_iff] at h ⊢
    rwa [workers_step_of_ne hij]

theorem isStopped_run {j : Nat} (h : s.isStopped j = true) (i n : Nat) :
    (s.run i n).isStopped j = true := by
  induction n generalizing s with
  | zero => exact h
  | succ n ih =>
    unfold run
    split
    · exact h
    · exact ih (isStopped_step h i)

theorem length_run (i n : Nat) : (s.run i n).workers.length = s.workers.length := by
  induction n generalizing s with
  | zero => rfl
  | succ n ih =>
    unfold run
    split
    · rfl
    · rw [ih, length_step]

/-- A worker that may make all the steps it has left comes to its end. -/
theorem isStopped_run_self {i n : Nat} {w : Worker} (hw : s.workers[i]? = some w)
    (hn : w.work ≤ n) : (s.run i n).isStopped i = true := by
  induction n generalizing s w with
  | zero =>
    refine isStopped_iff.mpr fun v hv => ?_
    obtain rfl : w = v := Option.some.inj (hw.symm.trans hv)
    cases hstate : w.state with
    | stopped => rfl
    | searching => simp [Worker.work, hstate] at hn
    | claiming nonce => simp [Worker.work, hstate] at hn
  | succ n ih =>
    unfold run
    by_cases hstopped : s.isStopped i = true
    · rwa [if_pos hstopped]
    · have hmoves : w.state ≠ .stopped := by
        intro hstate
        simp [isStopped, hw, hstate] at hstopped
      have hlt : (s.stepWorker w).work < w.work := (follows_stepWorker hmoves).work_lt
      rw [if_neg hstopped]
      exact ih (workers_step_self hw) (by omega)

theorem isStopped_run_stepsLeft (i : Nat) : (s.run i (s.stepsLeft i)).isStopped i = true := by
  cases hw : s.workers[i]? with
  | none =>
    have : s.isStopped i = true := isStopped_iff.mpr (by simp [hw])
    exact isStopped_run this i _
  | some w =>
    have hwork : w.work ≤ s.stepsLeft i := by
      simp only [stepsLeft, hw, Worker.work]
      split <;> omega
    exact isStopped_run_self hw hwork

/-- One worker after the other comes to its end. -/
theorem isStopped_foldl_run {j : Nat} {workers : List Nat}
    (h : s.isStopped j = true ∨ j ∈ workers) :
    (workers.foldl (fun s i => s.run i (s.stepsLeft i)) s).isStopped j = true := by
  induction workers generalizing s with
  | nil => simpa using h
  | cons i workers ih =>
    refine ih ?_
    rcases h with hstopped | hmem
    · exact .inl (isStopped_run hstopped i _)
    · rcases List.mem_cons.mp hmem with rfl | htail
      · exact .inl (isStopped_run_stepsLeft j)
      · exact .inr htail

theorem length_foldl_run (workers : List Nat) :
    (workers.foldl (fun s i => s.run i (s.stepsLeft i)) s).workers.length = s.workers.length := by
  induction workers generalizing s with
  | nil => rfl
  | cons i workers ih => exact ih.trans (length_run i _)

theorem finished_finish (s : NonceSearch) : s.finish.shared.Finished := by
  refine ⟨fun w hw => ?_, rfl⟩
  obtain ⟨j, hj⟩ := List.mem_iff_getElem?.mp hw
  obtain ⟨hlt, -⟩ := List.getElem?_eq_some_iff.mp hj
  have hmem : j ∈ List.range s.workers.length :=
    List.mem_range.mpr (length_foldl_run (List.range s.workers.length) ▸ hlt)
  exact isStopped_iff.mp (isStopped_foldl_run (.inr hmem)) w hj

theorem stop_play_workers (s : NonceSearch) (turns : List Nat) :
    (s.play (turns.map .worker)).stop = s.stop := by
  induction turns generalizing s with
  | nil => rfl
  | cons i turns ih => exact (ih (s.step i)).trans (stop_step s i)

end NonceSearch

/-- What a search of a miner, stopped before it began or not, may have come to. -/
def Miner.LeadsTo (m : Miner) (head : Bytes) (target : UInt32) (early : Bool) (s : SharedSearch) :
    Prop :=
  SharedSearch.Leads early (m.start head target early).shared s

theorem Miner.leadsTo_play (m : Miner) (head : Bytes) (target : UInt32) (early : Bool)
    (moves : List SearchMove) :
    m.LeadsTo head target early ((m.start head target early).play moves).shared := by
  have hearly : early = true → (m.start head target early).stop = true := id
  exact NonceSearch.leads_play hearly moves

/-- Workers that run one after the other are one way to share a search. -/
theorem Miner.mine_is_outcome (m : Miner) (head : Bytes) (target : UInt32) (early : Bool) :
    ∃ s, m.LeadsTo head target early s ∧ s.Finished ∧ s.search.stop = early ∧
      s.outcome = m.mine head target early := by
  obtain ⟨turns, hturns⟩ := (m.start head target early).exists_finish_eq_play
  refine ⟨(m.start head target early).finish.shared, ?_, NonceSearch.finished_finish _, ?_,
    NonceSearch.outcome_shared _⟩
  · exact hturns ▸ m.leadsTo_play head target early _
  · exact (congrArg NonceSearch.stop hturns).trans (NonceSearch.stop_play_workers _ turns)

end LedgerWatch
