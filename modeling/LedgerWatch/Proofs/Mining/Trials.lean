import LedgerWatch.Proofs.Mining.Outcome
import Mathlib.Data.List.Nodup

/-!
# Every nonce is tried once

The ranges of the workers divide the nonces below the last one among them. So no nonce is tried
twice, by one worker or by two, and a search that comes to its end without a find and without a stop
has tried them all.

## Main definitions

- `NonceSearch.trial?`: the nonce that a worker tries in its next step
- `SharedSearch.Tries`: the steps of a search, in any order, with the nonces tried on the way
- `NonceSearch.Noted`: a record of trials that agrees with where the workers stand

## Main results

- `NonceSearch.Noted.advance`: the record stays right with every move of a worker
- `Miner.ranges_exact`: the ranges divide the nonces, and so do the trials of every search
-/

namespace LedgerWatch

variable {head : Bytes} {target : UInt32} {early : Bool}

namespace NonceSearch

/-- The nonce that a worker tries in its next step, by what it knows of the search. -/
def trial? (known : NonceSearch) (w : Worker) : Option UInt64 :=
  match w.state with
  | .claiming _ | .stopped => none
  | .searching =>
    if w.next = w.limit then none
    else if (w.next - w.first) % checkInterval = 0 && (known.winner.isSome || known.stop) then none
    else some w.next

variable {known : NonceSearch} {w : Worker}

/-- A worker that tries no nonce stops. -/
theorem stepWorker_of_trial?_none (h : known.trial? w = none) :
    known.stepWorker w = { w with state := .stopped } := by
  unfold trial? at h
  unfold stepWorker
  split at h
  next nonce hstate => simp [hstate]
  next hstate =>
    obtain ⟨first, next, limit, state⟩ := w
    obtain rfl : state = .stopped := hstate
    rfl
  next hstate =>
    simp only [hstate]
    split at h
    next hlimit => rw [if_pos hlimit]
    next hlimit =>
      split at h
      next hcheck => rw [if_neg hlimit, if_pos hcheck]
      next hcheck => cases h

/-- A worker that tries a nonce claims it or goes on to the next one. -/
theorem stepWorker_of_trial?_some {nonce : UInt64} (h : known.trial? w = some nonce) :
    w.next = nonce ∧ w.state = .searching ∧ w.next ≠ w.limit ∧
      known.stepWorker w = if reaches known.head known.target w.next
        then { w with state := .claiming w.next } else { w with next := w.next + 1 } := by
  unfold trial? at h
  split at h
  next => cases h
  next => cases h
  next hstate =>
    split at h
    next => cases h
    next hlimit =>
      split at h
      next => cases h
      next hcheck =>
        refine ⟨Option.some.inj h, hstate, hlimit, ?_⟩
        simp only [stepWorker, hstate, if_neg hlimit, if_neg hcheck]

/-- What one move of a worker, and the nonce it tries in it, have to do with each other. -/
structure Moves (w : Worker) (trial : Option UInt64) (after : Worker) : Prop where
  range_eq : after.range = w.range
  searching : after.state = .searching → w.state = .searching
  at_next : ∀ nonce, trial = some nonce →
    w.state = .searching ∧ w.next = nonce ∧ w.next < w.limit
  behind : ∀ nonce, nonce < after.next → nonce < w.next ∨ trial = some nonce
  /-- A worker that goes on leaves the nonce behind. -/
  leaves : after.state = .searching →
    ∀ nonce, nonce < w.next ∨ trial = some nonce → nonce < after.next

theorem moves_stepWorker (hw : w.Sifted head target) :
    Moves w (known.trial? w) (known.stepWorker w) := by
  cases htrial : known.trial? w with
  | none =>
    rw [stepWorker_of_trial?_none htrial]
    exact ⟨rfl, by simp, by simp, fun _ => .inl, by simp⟩
  | some nonce =>
    obtain ⟨rfl, hstate, hlimit, hstep⟩ := stepWorker_of_trial?_some htrial
    have hlt : w.next < w.limit := UInt64.lt_of_le_of_ne hw.next_le hlimit
    have hat : ∀ nonce, some w.next = some nonce →
        w.state = .searching ∧ w.next = nonce ∧ w.next < w.limit :=
      fun _ h => ⟨hstate, Option.some.inj h, hlt⟩
    rw [hstep]
    split
    · exact ⟨rfl, fun _ => hstate, hat, fun _ => .inl, by simp⟩
    · have hbehind : ∀ nonce, nonce < w.next + 1 ↔ nonce < w.next ∨ some w.next = some nonce := by
        intro nonce
        have hsucc := toNat_succ_of_lt hlt
        rw [Option.some_inj, UInt64.lt_iff_toNat_lt, UInt64.lt_iff_toNat_lt, ← UInt64.toNat_inj]
        omega
      exact ⟨rfl, fun _ => hstate, hat, fun nonce => (hbehind nonce).mp,
        fun _ nonce => (hbehind nonce).mpr⟩

theorem getElem?_advance {s : NonceSearch} {i : Nat} (hw : s.workers[i]? = some w) (j : Nat) :
    (s.advance i w known).workers[j]? =
      if i = j then some (known.stepWorker w) else s.workers[j]? := by
  obtain ⟨hlt, -⟩ := List.getElem?_eq_some_iff.mp hw
  rw [NonceSearch.advance, List.getElem?_set, if_pos hlt]

/-- The nonces tried so far, each with the worker that tried it: they lie behind the workers or are
those at which the workers stopped. -/
structure Noted (s : NonceSearch) (trials : List (Nat × UInt64)) : Prop where
  nodup : trials.Nodup
  tried : ∀ i nonce, (i, nonce) ∈ trials →
    ∃ w, s.workers[i]? = some w ∧ w.first ≤ nonce ∧ nonce < w.limit ∧
      (w.state = .searching → nonce < w.next)
  passed : ∀ i w nonce, s.workers[i]? = some w → w.first ≤ nonce → nonce < w.next →
    (i, nonce) ∈ trials

namespace Noted

variable {s : NonceSearch} {trials : List (Nat × UInt64)} {i : Nat}

theorem start (m : Miner) : (m.start head target early).Noted [] := by
  refine ⟨List.nodup_nil, by simp, ?_⟩
  intro i w nonce hw hfirst hbehind
  have hmem := List.mem_of_getElem? hw
  simp only [Miner.start, List.mem_map] at hmem
  obtain ⟨j, -, rfl⟩ := hmem
  exact absurd hbehind (UInt64.not_lt.mpr hfirst)

/-- Whatever a worker knows of the search, what it tries was not tried before, and the record is
right with it. -/
theorem advance (h : s.Noted trials) (hw : s.workers[i]? = some w)
    (hsifted : w.Sifted head target) :
    (s.advance i w known).Noted (trials ++ (known.trial? w).toList.map (Prod.mk i)) := by
  have hmoves : Moves w (known.trial? w) (known.stepWorker w) := moves_stepWorker hsifted
  have hfirst : (known.stepWorker w).first = w.first := congrArg Prod.fst hmoves.range_eq
  have hlimit : (known.stepWorker w).limit = w.limit := congrArg Prod.snd hmoves.range_eq
  have hnew : ∀ j nonce, (j, nonce) ∈ (known.trial? w).toList.map (Prod.mk i) ↔
      i = j ∧ known.trial? w = some nonce := by
    intro j nonce
    cases known.trial? w <;> simp [eq_comm]
  refine ⟨?_, fun j nonce hmem => ?_, fun j v nonce hv hle hbehind => ?_⟩
  · refine List.nodup_append.mpr ⟨h.nodup, ?_, ?_⟩
    · cases known.trial? w <;> simp
    · rintro ⟨j, nonce⟩ hold _ hmem rfl
      obtain ⟨rfl, htrial⟩ := (hnew j nonce).mp hmem
      obtain ⟨hstate, rfl, -⟩ := hmoves.at_next nonce htrial
      obtain ⟨v, hv, -, -, hbehind⟩ := h.tried i w.next hold
      obtain rfl : w = v := Option.some.inj (hw.symm.trans hv)
      exact absurd (hbehind hstate) (UInt64.lt_irrefl _)
  · rw [getElem?_advance hw]
    rcases List.mem_append.mp hmem with hold | hmem
    · obtain ⟨v, hv, hle, hlt, hbehind⟩ := h.tried j nonce hold
      split
      next hij =>
        obtain rfl : w = v := Option.some.inj (hw.symm.trans (hij ▸ hv))
        exact ⟨_, rfl, hfirst ▸ hle, hlimit ▸ hlt, fun hstate =>
          hmoves.leaves hstate nonce (.inl (hbehind (hmoves.searching hstate)))⟩
      next => exact ⟨v, hv, hle, hlt, hbehind⟩
    · obtain ⟨rfl, htrial⟩ := (hnew j nonce).mp hmem
      obtain ⟨-, rfl, hlt⟩ := hmoves.at_next nonce htrial
      rw [if_pos rfl]
      exact ⟨_, rfl, hfirst ▸ hsifted.first_le, hlimit ▸ hlt, fun hstate =>
        hmoves.leaves hstate w.next (.inr htrial)⟩
  · rw [List.mem_append, hnew]
    rw [getElem?_advance hw] at hv
    split at hv
    next hij =>
      obtain rfl : known.stepWorker w = v := Option.some.inj hv
      rcases hmoves.behind nonce hbehind with hold | htrial
      · exact .inl (h.passed j w nonce (hij ▸ hw) (hfirst ▸ hle) hold)
      · exact .inr ⟨hij, htrial⟩
    next => exact .inl (h.passed j v nonce hv hle hbehind)

end Noted

end NonceSearch

namespace SharedSearch

/-- What steps in any order may lead to, with the nonces that the workers try on the way. -/
inductive Tries (early : Bool) (initial : SharedSearch) :
    List (Nat × UInt64) → SharedSearch → Prop
  | start : Tries early initial [] initial
  | worker {trials : List (Nat × UInt64)} {s : SharedSearch} {i : Nat} {w : Worker}
      {found stop : Bool} (htries : Tries early initial trials s)
      (hw : s.search.workers[i]? = some w) (hmoves : w.state ≠ .stopped)
      (hstop : stop = true → s.search.stop = true) (hearly : early = true → stop = true) :
      Tries early initial (trials ++ ((s.search.seenAs found stop).trial? w).toList.map (Prod.mk i))
        (s.advance i w found stop)
  | write {trials : List (Nat × UInt64)} {s : SharedSearch} {nonce : UInt64}
      (htries : Tries early initial trials s) (h : s.unwritten = some nonce) :
      Tries early initial trials { s with unwritten := none, cell := nonce }
  | raiseStop {trials : List (Nat × UInt64)} {s : SharedSearch}
      (htries : Tries early initial trials s) (h : s.search.stop = false) :
      Tries early initial trials { s with search := s.search.raiseStop }

variable {initial s : SharedSearch} {trials : List (Nat × UInt64)}

theorem Tries.leads (h : Tries early initial trials s) : Leads early initial s := by
  induction h with
  | start => exact .refl
  | worker htries hw hmoves hstop hearly ih => exact .tail ih (.worker hw hmoves hstop hearly)
  | write htries h ih => exact .tail ih (.write h)
  | raiseStop htries h ih => exact .tail ih (.raiseStop h)

/-- The trials of every search can be recorded. -/
theorem exists_tries (h : Leads early initial s) : ∃ trials, Tries early initial trials s := by
  induction h with
  | refl => exact ⟨[], .start⟩
  | tail _ hstep ih =>
    obtain ⟨trials, htries⟩ := ih
    cases hstep with
    | worker hw hmoves hstop hearly => exact ⟨_, .worker htries hw hmoves hstop hearly⟩
    | write h => exact ⟨_, .write htries h⟩
    | raiseStop h => exact ⟨_, .raiseStop htries h⟩

end SharedSearch

/-! ## The trials of a miner's search -/

/-- A worker counts its nonces up without a carry. -/
structure Worker.CountsInWord (w : Worker) : Prop where
  first_le : w.first.toNat ≤ w.next.toNat
  succ_lt : w.next ≠ w.limit → w.next.toNat + 1 < 2 ^ 64

theorem Worker.Sifted.countsInWord {w : Worker} (h : w.Sifted head target) : w.CountsInWord := by
  refine ⟨UInt64.le_iff_toNat_le.mp h.first_le, fun hlimit => ?_⟩
  have hlt := UInt64.lt_iff_toNat_lt.mp (UInt64.lt_of_le_of_ne h.next_le hlimit)
  have hbound := w.limit.toNat_lt
  omega

namespace NonceSearch

variable {m : Miner} {s : NonceSearch} {trials : List (Nat × UInt64)} {i : Nat}

/-- The ranges of the workers are those of the miner. -/
theorem Sifts.range_eq (h : s.Sifts m head target) {w : Worker} (hw : s.workers[i]? = some w) :
    i < m.threads.toNat ∧ w.first = m.rangeStart (UInt64.ofNat i) ∧
      w.limit = m.rangeEnd (UInt64.ofNat i) := by
  have hrange : m.ranges[i]? = some w.range := by
    rw [← h.ranges, List.getElem?_map, hw, Option.map_some]
  have hi : i < m.threads.toNat := by
    obtain ⟨hlt, -⟩ := List.getElem?_eq_some_iff.mp hrange
    simpa [Miner.ranges] using hlt
  rw [Miner.getElem?_ranges hi, Option.some_inj] at hrange
  exact ⟨hi, congrArg Prod.fst hrange.symm, congrArg Prod.snd hrange.symm⟩

namespace Noted

theorem mem_nonces (h : s.Noted trials) (hsifts : s.Sifts m head target) {nonce : UInt64}
    (hmem : (i, nonce) ∈ trials) : i < m.threads.toNat ∧ nonce ∈ m.nonces i := by
  obtain ⟨w, hw, hfirst, hlimit, -⟩ := h.tried i nonce hmem
  obtain ⟨hi, hstart, hend⟩ := hsifts.range_eq hw
  exact ⟨hi, hstart ▸ hfirst, hend ▸ hlimit⟩

/-- No nonce is tried by two workers. -/
theorem unique (h : s.Noted trials) (hsifts : s.Sifts m head target) {j : Nat} {nonce : UInt64}
    (hi : (i, nonce) ∈ trials) (hj : (j, nonce) ∈ trials) : i = j := by
  obtain ⟨hlt, hmem⟩ := h.mem_nonces hsifts hi
  obtain ⟨hlt', hmem'⟩ := h.mem_nonces hsifts hj
  by_contra hne
  exact Set.disjoint_left.mp (m.pairwiseDisjoint_nonces hlt hlt' hne) hmem hmem'

/-- No nonce is tried twice. -/
theorem nodup_nonces (h : s.Noted trials) (hsifts : s.Sifts m head target) :
    (trials.map Prod.snd).Nodup := by
  refine h.nodup.map_on ?_
  rintro ⟨i, nonce⟩ hi ⟨j, _⟩ hj rfl
  rw [h.unique hsifts hi hj]

/-- If all workers have stopped without a winner, and not for a stop, every nonce of their ranges
was tried. -/
theorem complete (h : s.Noted trials) (hsifts : s.Sifts m head target)
    (hall : ∀ w ∈ s.workers, w.state = .stopped) (hwinner : s.winner = none)
    (hstop : s.stop = false) {nonce : UInt64} (hi : i < m.threads.toNat)
    (hnonce : nonce ∈ m.nonces i) : (i, nonce) ∈ trials := by
  obtain ⟨w, hw, hfirst, hlimit⟩ := hsifts.exists_worker hi
  have hend : w.next = w.limit :=
    hsifts.next_eq_limit hall hwinner hstop (List.mem_of_getElem? hw)
  exact h.passed i w nonce hw (hfirst ▸ hnonce.1) (hend ▸ hlimit ▸ hnonce.2)

end Noted

end NonceSearch

namespace SharedSearch.Tries

variable {m : Miner} {s : SharedSearch} {trials : List (Nat × UInt64)}

theorem leadsTo (h : Tries early (m.start head target early).shared trials s) :
    m.LeadsTo head target early s :=
  h.leads

theorem noted (h : Tries early (m.start head target early).shared trials s) :
    s.search.Noted trials := by
  induction h with
  | start => exact NonceSearch.Noted.start m
  | worker htries hw hmoves hstop hearly ih =>
    exact ih.advance hw (htries.leadsTo.sifts.sifted _ (List.mem_of_getElem? hw))
  | write htries h ih => exact ih
  | raiseStop htries h ih => exact ⟨ih.nodup, ih.tried, ih.passed⟩

end SharedSearch.Tries

/-- The ranges are computed as if words had no bound. None of them is empty, no two of them meet,
and together they are all nonces but the last one. A search tries nonces in the ranges of the
workers that try them, none of them twice, and if it finds nothing without being stopped, every
nonce was tried by exactly one worker. Running the workers one after the other is one such
search. -/
theorem Miner.ranges_exact (m : Miner) :
    m.ComputesInWord ∧
    (∀ i < m.threads.toNat,
      (m.rangeStart (UInt64.ofNat i)).toNat = i * ((2 ^ 64 - 1) / m.threads.toNat) ∧
      (m.rangeEnd (UInt64.ofNat i)).toNat = if i + 1 = m.threads.toNat then 2 ^ 64 - 1
        else (i + 1) * ((2 ^ 64 - 1) / m.threads.toNat)) ∧
    (∀ i < m.threads.toNat, (m.nonces i).Nonempty) ∧
    (Set.Iio m.threads.toNat).PairwiseDisjoint m.nonces ∧
    (⋃ i ∈ Set.Iio m.threads.toNat, m.nonces i = {nonce | nonce.toNat ≤ 2 ^ 64 - 2}) ∧
    ∀ (head : Bytes) (target : UInt32) (early : Bool),
      (∀ trials s, SharedSearch.Tries early (m.start head target early).shared trials s →
        (∀ w ∈ s.search.workers, w.CountsInWord) ∧
        (∀ i nonce, (i, nonce) ∈ trials → i < m.threads.toNat ∧ nonce ∈ m.nonces i) ∧
        (trials.map Prod.snd).Nodup ∧
        (s.Finished → s.outcome = none → s.search.stop = false →
          ∀ nonce : UInt64, nonce.toNat ≤ 2 ^ 64 - 2 → ∃! i, (i, nonce) ∈ trials)) ∧
      ∃ trials s, SharedSearch.Tries early (m.start head target early).shared trials s ∧
        s.Finished ∧ s.search.stop = early ∧ s.outcome = m.mine head target early := by
  refine ⟨m.computesInWord, fun i hi => ?_, fun i hi => nonempty_nonces hi,
    m.pairwiseDisjoint_nonces, m.iUnion_nonces, fun head target early => ⟨?_, ?_⟩⟩
  · have hlength : m.rangeLength.toNat = (2 ^ 64 - 1) / m.threads.toNat := m.toNat_rangeLength
    exact ⟨hlength ▸ toNat_rangeStart hi, hlength ▸ toNat_rangeEnd hi⟩
  · intro trials s htries
    have hsifts := htries.leadsTo.sifts
    have hnoted := htries.noted
    refine ⟨fun w hw => (hsifts.sifted w hw).countsInWord, fun i nonce => hnoted.mem_nonces hsifts,
      hnoted.nodup_nonces hsifts, ?_⟩
    intro hfinished hnone hstop nonce hnonce
    have hwinner : s.search.winner = none :=
      (htries.leadsTo.handsOver.outcome_eq hfinished.written).symm.trans hnone
    obtain ⟨i, hi, hmem⟩ := m.exists_range (lt_lastNonce_iff.mpr hnonce)
    have htried : (i, nonce) ∈ trials :=
      hnoted.complete hsifts hfinished.stopped hwinner hstop hi hmem
    exact ⟨i, htried, fun j hj => hnoted.unique hsifts hj htried⟩
  · obtain ⟨s, hleads, hend⟩ := m.mine_is_outcome head target early
    obtain ⟨trials, htries⟩ := SharedSearch.exists_tries hleads
    exact ⟨trials, s, htries, hend⟩

/-- Seven workers divide the nonces with one left over, and no nonce has a score above 256, so that
they try them all. -/
theorem Miner.ranges_exact_sevenWorkers :
    ((ofThreads 7).rangeEnd 5).toNat = 6 * ((2 ^ 64 - 1) / 7) ∧
    ∃ trials s, SharedSearch.Tries false ((ofThreads 7).start [] 257 false).shared trials s ∧
      ∀ nonce : UInt64, nonce.toNat ≤ 2 ^ 64 - 2 → ∃! i, (i, nonce) ∈ trials := by
  obtain ⟨-, hends, -, -, -, hsearch⟩ := ranges_exact (ofThreads 7)
  obtain ⟨hall, trials, s, htries, hfinished, hstop, -⟩ := hsearch [] 257 false
  obtain ⟨-, -, -, hexhausts⟩ := hall trials s htries
  have hnone : s.outcome = none := by
    rw [htries.leadsTo.handsOver.outcome_eq hfinished.written]
    by_contra hsome
    obtain ⟨nonce, hwinner⟩ := Option.ne_none_iff_exists'.mp hsome
    have hreaches := htries.leadsTo.sifts.sound.winner nonce hwinner
    have hbelow : workScore (withNonce [] nonce) < 257 := Nat.lt_succ_of_le (workScore_le _)
    exact absurd (of_decide_eq_true hreaches) (Nat.not_le_of_lt hbelow)
  exact ⟨(hends 5 (by decide)).2, trials, s, htries, hexhausts hfinished hnone hstop⟩

end LedgerWatch
