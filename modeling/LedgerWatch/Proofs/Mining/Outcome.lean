import LedgerWatch.Proofs.Mining.Range
import LedgerWatch.Proofs.Mining.Score
import LedgerWatch.Proofs.Mining.Shared

/-!
# What a search comes to

A search that its workers share finds only nonces that reach the target, and if it finds none and
was not stopped, there are none below the last nonce. This holds for every number of workers,
whatever turns they take and however late they hear of a claim or a stop.

## Main definitions

- `Worker.Sifted`: every nonce behind a worker misses the target
- `NonceSearch.Sifts`: what the workers have sifted so far, and why they have stopped
- `NonceSearch.Idle`: no nonce has been tried
- `SharedSearch.HandsOver`: the nonce of the first claim reaches the cell

## Main results

- `NonceSearch.Sifts.advance`, `NonceSearch.Idle.advance`: what a move of a worker preserves
- `Miner.search_outcomes`: searches end, and what they come to
-/

namespace LedgerWatch

variable {head : Bytes} {target : UInt32}

/-! ## One worker -/

/-- Every nonce behind a worker misses the target, and it claims only the nonce at which it
stands. -/
structure Worker.Sifted (head : Bytes) (target : UInt32) (w : Worker) : Prop where
  first_le : w.first ≤ w.next
  next_le : w.next ≤ w.limit
  passed : ∀ nonce, w.first ≤ nonce → nonce < w.next → reaches head target nonce = false
  claims : ∀ nonce, w.state = .claiming nonce → w.next = nonce

def Worker.range (w : Worker) : UInt64 × UInt64 := (w.first, w.limit)

theorem toNat_succ_of_lt {a b : UInt64} (h : a < b) : (a + 1).toNat = a.toNat + 1 := by
  have hlt := UInt64.lt_iff_toNat_lt.mp h
  have hb := b.toNat_lt
  rw [UInt64.toNat_add, UInt64.toNat_one, Nat.mod_eq_of_lt (by omega)]

namespace NonceSearch.Follows

variable {known : NonceSearch} {w after : Worker}

theorem range_eq (h : known.Follows w after) : after.range = w.range := by
  cases h <;> rfl

theorem sifted (h : known.Follows w after) (hw : w.Sifted known.head known.target) :
    after.Sifted known.head known.target := by
  cases h with
  | retire hstate => exact ⟨hw.first_le, hw.next_le, hw.passed, by simp⟩
  | giveUp hstate hover => exact ⟨hw.first_le, hw.next_le, hw.passed, by simp⟩
  | hit hstate hlimit hgoes hreaches =>
    exact ⟨hw.first_le, hw.next_le, hw.passed, fun _ h => WorkerState.claiming.inj h⟩
  | pass hstate hlimit hgoes hmiss =>
    have hlt : w.next < w.limit := UInt64.lt_of_le_of_ne hw.next_le hlimit
    have hsucc := toNat_succ_of_lt hlt
    have hfirst := UInt64.le_iff_toNat_le.mp hw.first_le
    have hnext := UInt64.lt_iff_toNat_lt.mp hlt
    refine ⟨UInt64.le_iff_toNat_le.mpr ?_, UInt64.le_iff_toNat_le.mpr ?_, ?_, by simp [hstate]⟩
    · show w.first.toNat ≤ (w.next + 1).toNat
      omega
    · show (w.next + 1).toNat ≤ w.limit.toNat
      omega
    · intro nonce hle hbehind
      have hbehind' : nonce.toNat < (w.next + 1).toNat := UInt64.lt_iff_toNat_lt.mp hbehind
      by_cases hat : nonce = w.next
      · rwa [hat]
      · have hne : nonce.toNat ≠ w.next.toNat := fun h => hat (UInt64.toNat_inj.mp h)
        exact hw.passed nonce hle (UInt64.lt_iff_toNat_lt.mpr (by omega))

end NonceSearch.Follows

/-! ## All workers -/

theorem map_set_of_eq {α β : Type} (f : α → β) {l : List α} {i : Nat} {a b : α}
    (h : l[i]? = some a) (hf : f b = f a) : (l.set i b).map f = l.map f := by
  have hi : (l.map f)[i]? = some (f a) := by rw [List.getElem?_map, h, Option.map_some]
  obtain ⟨hlt, hget⟩ := List.getElem?_eq_some_iff.mp hi
  rw [List.map_set, hf, ← hget, List.set_getElem_self]

/-- The ranges of a miner's workers. -/
def Miner.ranges (m : Miner) : List (UInt64 × UInt64) :=
  (List.range m.threads.toNat).map fun i =>
    (m.rangeStart (UInt64.ofNat i), m.rangeEnd (UInt64.ofNat i))

theorem Miner.getElem?_ranges {m : Miner} {i : Nat} (hi : i < m.threads.toNat) :
    m.ranges[i]? = some (m.rangeStart (UInt64.ofNat i), m.rangeEnd (UInt64.ofNat i)) := by
  rw [ranges, List.getElem?_map, List.getElem?_range hi, Option.map_some]

namespace NonceSearch

/-- A search in which no nonce was missed. -/
structure Sifts (m : Miner) (head : Bytes) (target : UInt32) (s : NonceSearch) : Prop where
  sound : s.Sound head target
  ranges : s.workers.map Worker.range = m.ranges
  sifted : ∀ w ∈ s.workers, w.Sifted head target
  /-- The winner stopped at the nonce with which it won. -/
  won : ∀ nonce, s.winner = some nonce →
    ∃ (i : Nat) (w : Worker), s.workers[i]? = some w ∧ w.state = .stopped ∧ w.next = nonce
  /-- Workers do not stop without a reason. -/
  stopped : ∀ w ∈ s.workers, w.state = .stopped →
    w.next = w.limit ∨ s.winner.isSome = true ∨ s.stop = true

variable {m : Miner} {s : NonceSearch} {i : Nat} {w : Worker} {found stop : Bool}

theorem isSome_winnerAfter (h : s.winner.isSome = true) (w : Worker) :
    (s.winnerAfter w).isSome = true := by
  unfold winnerAfter
  split <;> simp [h]

theorem isSome_winnerAfter_claiming {nonce : UInt64} (h : w.state = .claiming nonce) :
    (s.winnerAfter w).isSome = true := by
  simp [winnerAfter, h]

theorem isSome_winner_of_seenAs (h : (s.seenAs found stop).winner.isSome = true) :
    s.winner.isSome = true := by
  unfold seenAs at h
  by_cases hfound : found = true <;> simp_all

namespace Sifts

theorem start (m : Miner) (head : Bytes) (target : UInt32) (early : Bool) :
    (m.start head target early).Sifts m head target := by
  have hworkers : ∀ w ∈ (m.start head target early).workers,
      w.state = .searching ∧ w.next = w.first ∧ w.first ≤ w.limit := by
    intro w hw
    simp only [Miner.start, List.mem_map, List.mem_range] at hw
    obtain ⟨i, hi, rfl⟩ := hw
    exact ⟨rfl, rfl, Miner.rangeStart_le_rangeEnd hi⟩
  refine ⟨m.sound_start head target early, ?_, ?_, by simp [Miner.start], ?_⟩
  · rw [Miner.start, List.map_map]
    rfl
  · intro w hw
    obtain ⟨hstate, hnext, hle⟩ := hworkers w hw
    refine ⟨hnext ▸ UInt64.le_refl _, hnext ▸ hle, ?_, by simp [hstate]⟩
    intro nonce hfirst hbehind
    exact absurd (hnext ▸ hbehind) (UInt64.not_lt.mpr hfirst)
  · intro w hw hstopped
    simp [(hworkers w hw).1] at hstopped

theorem won_advance (h : s.Sifts m head target) (hw : s.workers[i]? = some w)
    (hmoves : w.state ≠ .stopped) {known : NonceSearch} {nonce : UInt64}
    (hwon : (s.advance i w known).winner = some nonce) :
    ∃ (j : Nat) (v : Worker),
      (s.advance i w known).workers[j]? = some v ∧ v.state = .stopped ∧ v.next = nonce := by
  -- whoever won before has stopped and does not move
  have hold : s.winner = some nonce → ∃ (j : Nat) (v : Worker),
      (s.advance i w known).workers[j]? = some v ∧ v.state = .stopped ∧ v.next = nonce := by
    intro hwinner
    obtain ⟨j, v, hv, hstopped, hnext⟩ := h.won nonce hwinner
    have hij : i ≠ j := by
      rintro rfl
      obtain rfl : w = v := Option.some.inj (hw.symm.trans hv)
      exact hmoves hstopped
    exact ⟨j, v, (List.getElem?_set_ne hij).trans hv, hstopped, hnext⟩
  cases hstate : w.state with
  | stopped => exact absurd hstate hmoves
  | searching =>
    simp only [NonceSearch.advance, winnerAfter, hstate] at hwon
    exact hold hwon
  | claiming claimed =>
    simp only [NonceSearch.advance, winnerAfter, hstate] at hwon
    rcases Option.or_eq_some_iff.mp hwon with hwinner | ⟨-, hnew⟩
    · exact hold hwinner
    · obtain rfl := Option.some.inj hnew
      obtain ⟨hlt, -⟩ := List.getElem?_eq_some_iff.mp hw
      refine ⟨i, { w with state := .stopped }, ?_, rfl, ?_⟩
      · simp [NonceSearch.advance, stepWorker, hstate, hlt]
      · exact (h.sifted w (List.mem_of_getElem? hw)).claims claimed hstate

/-- Nothing is missed by a worker that moves on, whatever it has missed of the flags. -/
theorem advance (h : s.Sifts m head target) (hw : s.workers[i]? = some w)
    (hmoves : w.state ≠ .stopped) (hstop : stop = true → s.stop = true) :
    (s.advance i w (s.seenAs found stop)).Sifts m head target := by
  have hmem : w ∈ s.workers := List.mem_of_getElem? hw
  have hfollows : (s.seenAs found stop).Follows w ((s.seenAs found stop).stepWorker w) :=
    follows_stepWorker hmoves
  have hhead : (s.seenAs found stop).head = head := h.sound.head_eq
  have htarget : (s.seenAs found stop).target = target := h.sound.target_eq
  refine ⟨h.sound.advance hw rfl rfl, ?_, ?_, fun nonce => h.won_advance hw hmoves, ?_⟩
  · exact (map_set_of_eq Worker.range hw hfollows.range_eq).trans h.ranges
  · intro v hv
    rcases List.mem_or_eq_of_mem_set hv with hold | rfl
    · exact h.sifted v hold
    · have := hfollows.sifted (by rw [hhead, htarget]; exact h.sifted w hmem)
      rwa [hhead, htarget] at this
  · intro v hv hstopped
    rcases List.mem_or_eq_of_mem_set hv with hold | rfl
    · rcases h.stopped v hold hstopped with hlimit | hwinner | hstopped
      · exact .inl hlimit
      · exact .inr (.inl (isSome_winnerAfter hwinner w))
      · exact .inr (.inr hstopped)
    · generalize (s.seenAs found stop).stepWorker w = after at hfollows hstopped
      cases hfollows with
      | retire hstate => exact .inr (.inl (isSome_winnerAfter_claiming hstate))
      | giveUp hstate hover =>
        rcases hover with hlimit | hwinner | hseen
        · exact .inl hlimit
        · exact .inr (.inl (isSome_winnerAfter (isSome_winner_of_seenAs hwinner) w))
        · exact .inr (.inr (hstop hseen))
      | hit hstate hlimit hgoes hreaches => cases hstopped
      | pass hstate hlimit hgoes hmiss => rw [hstate] at hstopped; cases hstopped

theorem raiseStop (h : s.Sifts m head target) : s.raiseStop.Sifts m head target :=
  ⟨h.sound.raiseStop, h.ranges, h.sifted, h.won, fun _ _ _ => .inr (.inr rfl)⟩

theorem exists_worker (h : s.Sifts m head target) (hi : i < m.threads.toNat) :
    ∃ w, s.workers[i]? = some w ∧ w.first = m.rangeStart (UInt64.ofNat i) ∧
      w.limit = m.rangeEnd (UInt64.ofNat i) := by
  have hrange := Miner.getElem?_ranges hi
  rw [← h.ranges, List.getElem?_map, Option.map_eq_some_iff] at hrange
  obtain ⟨w, hw, heq⟩ := hrange
  exact ⟨w, hw, congrArg Prod.fst heq, congrArg Prod.snd heq⟩

/-- Without a winner and without a stop, workers stop at the ends of their ranges. -/
theorem next_eq_limit (h : s.Sifts m head target) (hall : ∀ w ∈ s.workers, w.state = .stopped)
    (hwinner : s.winner = none) (hstop : s.stop = false) (hmem : w ∈ s.workers) :
    w.next = w.limit := by
  rcases h.stopped w hmem (hall w hmem) with hlimit | hsome | hstopped
  · exact hlimit
  · simp [hwinner] at hsome
  · simp [hstop] at hstopped

/-- If all workers have stopped without a winner, and not for a stop, every nonce was tried. -/
theorem exhausted (h : s.Sifts m head target) (hall : ∀ w ∈ s.workers, w.state = .stopped)
    (hwinner : s.winner = none) (hstop : s.stop = false) {nonce : UInt64}
    (hnonce : nonce < Miner.lastNonce) : reaches head target nonce = false := by
  obtain ⟨i, hi, hfirst, hlimit⟩ := m.exists_range hnonce
  obtain ⟨w, hw, hwfirst, hwlimit⟩ := h.exists_worker hi
  have hmem : w ∈ s.workers := List.mem_of_getElem? hw
  have hend : w.next = w.limit := h.next_eq_limit hall hwinner hstop hmem
  exact (h.sifted w hmem).passed nonce (hwfirst ▸ hfirst) (hend ▸ hwlimit ▸ hlimit)

/-- A single worker wins with the least nonce. -/
theorem least (h : s.Sifts m head target) (hone : m.threads = 1) {nonce : UInt64}
    (hwinner : s.winner = some nonce) {lower : UInt64} (hlower : lower < nonce) :
    reaches head target lower = false := by
  obtain ⟨i, w, hw, -, rfl⟩ := h.won nonce hwinner
  have hlength : s.workers.length = 1 := by
    have := congrArg List.length h.ranges
    simpa [Miner.ranges, hone] using this
  obtain ⟨hlt, -⟩ := List.getElem?_eq_some_iff.mp hw
  obtain rfl : i = 0 := by omega
  obtain ⟨v, hv, hfirst, -⟩ := h.exists_worker (i := 0) (by simp [hone])
  obtain rfl : w = v := Option.some.inj (hw.symm.trans hv)
  have hzero : w.first = 0 := by simpa [Miner.rangeStart] using hfirst
  exact (h.sifted w (List.mem_of_getElem? hw)).passed lower (hzero ▸ UInt64.zero_le) hlower

end Sifts

/-- A search that was stopped before any nonce was tried. -/
structure Idle (s : NonceSearch) : Prop where
  stop : s.stop = true
  winner : s.winner = none
  workers : ∀ w ∈ s.workers, w.next = w.first ∧ (w.state = .searching ∨ w.state = .stopped)

namespace Idle

theorem start (m : Miner) (head : Bytes) (target : UInt32) :
    (m.start head target true).Idle := by
  refine ⟨rfl, rfl, ?_⟩
  intro w hw
  simp only [Miner.start, List.mem_map] at hw
  obtain ⟨i, -, rfl⟩ := hw
  exact ⟨rfl, .inl rfl⟩

/-- A worker that knows of the stop makes its check before the first nonce, and stops there. -/
theorem advance (h : s.Idle) (hw : s.workers[i]? = some w) (hmoves : w.state ≠ .stopped) :
    (s.advance i w (s.seenAs found true)).Idle := by
  obtain ⟨hnext, hstate⟩ := h.workers w (List.mem_of_getElem? hw)
  have hsearching : w.state = .searching := hstate.resolve_right hmoves
  have hchecks : ¬ (s.seenAs found true).GoesOn w := by
    simp [GoesOn, seenAs, hnext]
  have hfollows : (s.seenAs found true).Follows w ((s.seenAs found true).stepWorker w) :=
    follows_stepWorker hmoves
  refine ⟨h.stop, ?_, ?_⟩
  · simp [NonceSearch.advance, winnerAfter, hsearching, h.winner]
  · intro v hv
    rcases List.mem_or_eq_of_mem_set hv with hold | rfl
    · exact h.workers v hold
    · generalize (s.seenAs found true).stepWorker w = after at hfollows
      cases hfollows with
      | retire hclaims => rw [hsearching] at hclaims; cases hclaims
      | giveUp _ _ => exact ⟨hnext, .inr rfl⟩
      | hit _ _ hgoes _ => exact absurd hgoes hchecks
      | pass _ _ hgoes _ => exact absurd hgoes hchecks

end Idle

end NonceSearch

/-! ## The cell -/

namespace SharedSearch

/-- The nonce of the first claim is in the cell, or still to be written there. -/
structure HandsOver (s : SharedSearch) : Prop where
  unwritten : ∀ nonce, s.unwritten = some nonce → s.search.winner = some nonce
  written : s.unwritten = none → ∀ nonce, s.search.winner = some nonce → s.cell = nonce

theorem handsOver_shared (s : NonceSearch) : s.shared.HandsOver := by
  refine ⟨fun nonce h => ?_, fun _ nonce h => ?_⟩
  · cases h
  · have hwinner : s.winner = some nonce := h
    simp [NonceSearch.shared, hwinner]

theorem HandsOver.advance {s : SharedSearch} (h : s.HandsOver) (i : Nat) (w : Worker)
    (found stop : Bool) : (s.advance i w found stop).HandsOver := by
  have hkept : s.search.winnerAfter w = s.search.winner → s.unwrittenAfter w = s.unwritten →
      (s.advance i w found stop).HandsOver := by
    intro hwinner hunwritten
    refine ⟨fun nonce hnonce => ?_, fun hnone nonce hnonce => ?_⟩
    · exact hwinner.trans (h.unwritten nonce (hunwritten.symm.trans hnonce))
    · exact h.written (hunwritten.symm.trans hnone) nonce (hwinner.symm.trans hnonce)
  cases hstate : w.state with
  | searching =>
    apply hkept
    · simp [NonceSearch.winnerAfter, hstate]
    · simp [unwrittenAfter, hstate]
  | stopped =>
    apply hkept
    · simp [NonceSearch.winnerAfter, hstate]
    · simp [unwrittenAfter, hstate]
  | claiming claimed =>
    cases hheld : s.search.winner with
    | some held =>
      apply hkept
      · simp [NonceSearch.winnerAfter, hstate, hheld]
      · simp [unwrittenAfter, hstate, hheld]
    | none =>
      -- the first claim is the one to write
      have hclaimed : (s.advance i w found stop).unwritten = some claimed := by
        simp [SharedSearch.advance, unwrittenAfter, hstate, hheld]
      refine ⟨fun nonce hnonce => ?_, fun hnone => absurd hnone (by simp [hclaimed])⟩
      obtain rfl := Option.some.inj (hclaimed.symm.trans hnonce)
      simp [SharedSearch.advance, NonceSearch.advance, NonceSearch.winnerAfter, hstate, hheld]

theorem HandsOver.step {early : Bool} {before after : SharedSearch} (h : before.HandsOver)
    (hstep : Step early before after) : after.HandsOver := by
  cases hstep with
  | worker hw hmoves hstop hearly => exact h.advance _ _ _ _
  | write hunwritten =>
    refine ⟨fun nonce hnonce => ?_, fun _ nonce hnonce => ?_⟩
    · cases hnonce
    · exact Option.some.inj ((h.unwritten _ hunwritten).symm.trans hnonce)
  | raiseStop hstop => exact ⟨h.unwritten, h.written⟩

/-- What is read at the end is the nonce of the first claim. -/
theorem HandsOver.outcome_eq {s : SharedSearch} (h : s.HandsOver) (hwritten : s.unwritten = none) :
    s.outcome = s.search.winner := by
  cases hwinner : s.search.winner with
  | none => simp [outcome, hwinner]
  | some nonce => simp [outcome, hwinner, h.written hwritten nonce hwinner]

end SharedSearch

/-! ## Whole searches -/

namespace Miner.LeadsTo

variable {m : Miner} {early : Bool} {s : SharedSearch}

theorem handsOver (h : m.LeadsTo head target early s) : s.HandsOver := by
  induction h with
  | refl => exact SharedSearch.handsOver_shared _
  | tail _ hstep ih => exact ih.step hstep

theorem sifts (h : m.LeadsTo head target early s) : s.search.Sifts m head target := by
  induction h with
  | refl => exact NonceSearch.Sifts.start m head target early
  | tail _ hstep ih =>
    cases hstep with
    | worker hw hmoves hstop hearly => exact ih.advance hw hmoves hstop
    | write hunwritten => exact ih
    | raiseStop hstop => exact ih.raiseStop

theorem idle (h : m.LeadsTo head target true s) : s.search.Idle := by
  induction h with
  | refl => exact NonceSearch.Idle.start m head target
  | tail _ hstep ih =>
    cases hstep with
    | worker hw hmoves hstop hearly => exact hearly rfl ▸ ih.advance hw hmoves
    | write hunwritten => exact ih
    | raiseStop hstop => rw [ih.stop] at hstop; cases hstop

end Miner.LeadsTo

theorem reaches_eq_false_iff {nonce : UInt64} :
    reaches head target nonce = false ↔ workScore (withNonce head nonce) < target.toNat := by
  simp [reaches]

/-- Every search of any number of workers comes to its end. It finds only nonces that reach the
target, it finds nothing if it was stopped before it began, and if it finds nothing without being
stopped there is nothing to find. A single worker finds the least nonce. Running the workers one
after the other is one such search. -/
theorem Miner.search_outcomes (wanted : UInt64) (head : Bytes) (target : UInt32) (early : Bool) :
    (ofThreads wanted).threads = (if wanted = 0 then 1 else wanted) ∧
    WellFounded (fun after before : SharedSearch => SharedSearch.Step early before after) ∧
    (∀ s, (ofThreads wanted).LeadsTo head target early s →
      (¬ s.Finished →
        ∃ after, SharedSearch.Step early s after ∧ after.search.stop = s.search.stop) ∧
      (s.Finished →
        (∀ nonce, s.outcome = some nonce → target.toNat ≤ workScore (withNonce head nonce)) ∧
        (s.outcome = none → s.search.stop = false →
          ∀ nonce < lastNonce, workScore (withNonce head nonce) < target.toNat) ∧
        (early = true → s.outcome = none) ∧
        (wanted ≤ 1 → ∀ nonce, s.outcome = some nonce →
          ∀ lower < nonce, workScore (withNonce head lower) < target.toNat))) ∧
    ∃ s, (ofThreads wanted).LeadsTo head target early s ∧ s.Finished ∧ s.search.stop = early ∧
      s.outcome = (ofThreads wanted).mine head target early := by
  refine ⟨threads_ofThreads wanted, SharedSearch.wellFounded_step early, ?_,
    mine_is_outcome _ head target early⟩
  intro s hs
  have hsifts := hs.sifts
  refine ⟨fun hunfinished => ?_, fun hfinished => ?_⟩
  · refine SharedSearch.exists_step ?_ hunfinished
    rintro rfl
    exact hs.idle.stop
  · have houtcome : s.outcome = s.search.winner := hs.handsOver.outcome_eq hfinished.written
    rw [houtcome]
    refine ⟨fun nonce hwinner => ?_, fun hnone hstop nonce hnonce => ?_, ?_,
      fun hone nonce hwinner lower hlower => ?_⟩
    · exact of_decide_eq_true (hsifts.sound.winner nonce hwinner)
    · exact reaches_eq_false_iff.mp (hsifts.exhausted hfinished.stopped hnone hstop hnonce)
    · rintro rfl
      exact hs.idle.winner
    · refine reaches_eq_false_iff.mp (hsifts.least ?_ hwinner hlower)
      rw [threads_ofThreads]
      by_cases hzero : wanted = 0
      · rw [if_pos hzero]
      · rw [if_neg hzero]
        have hle : wanted.toNat ≤ 1 := UInt64.le_iff_toNat_le.mp hone
        have hne : wanted.toNat ≠ 0 := fun h => hzero (UInt64.toNat_inj.mp h)
        refine UInt64.toNat_inj.mp ?_
        show wanted.toNat = 1
        omega

/-- Two workers claim their first nonces, the second of them before the first. -/
def bothClaim : SharedSearch :=
  (((Miner.ofThreads 2).start [] 1 false).play
    [.worker 0, .worker 1, .worker 1, .worker 0]).shared

def singleClaim : SharedSearch :=
  (((Miner.ofThreads 0).start [1] 2 false).play [.worker 0, .worker 0, .worker 0]).shared

def stoppedEarly : SharedSearch :=
  (((Miner.ofThreads 2).start [] 0 true).play [.worker 1, .worker 0]).shared

theorem Miner.search_outcomes_bothClaim :
    (bothClaim.Finished ∧ bothClaim.outcome = some 9223372036854775807 ∧
      1 ≤ workScore (withNonce [] 9223372036854775807)) ∧
    (singleClaim.Finished ∧ singleClaim.outcome = some 1 ∧
      ∀ lower < 1, workScore (withNonce [1] lower) < 2) ∧
    (stoppedEarly.Finished ∧ stoppedEarly.outcome = none) ∧
    (∃ s, (ofThreads 1).LeadsTo [] 257 false s ∧ s.Finished ∧ s.search.stop = false ∧
      s.outcome = none ∧ ∀ nonce < lastNonce, workScore (withNonce [] nonce) < 257) := by
  refine ⟨?_, ?_, ?_, ?_⟩
  · have hend : (∀ w ∈ bothClaim.search.workers, w.state = .stopped) ∧
        bothClaim.outcome = some 9223372036854775807 := by decide +kernel
    have hfinished : bothClaim.Finished := ⟨hend.1, rfl⟩
    obtain ⟨-, -, hall, -⟩ := search_outcomes 2 [] 1 false
    obtain ⟨hreaches, -⟩ := (hall bothClaim (leadsTo_play _ _ _ _ _)).2 hfinished
    exact ⟨hfinished, hend.2, hreaches _ hend.2⟩
  · have hend : (∀ w ∈ singleClaim.search.workers, w.state = .stopped) ∧
        singleClaim.outcome = some 1 := by decide +kernel
    have hfinished : singleClaim.Finished := ⟨hend.1, rfl⟩
    obtain ⟨-, -, hall, -⟩ := search_outcomes 0 [1] 2 false
    obtain ⟨-, -, -, hleast⟩ := (hall singleClaim (leadsTo_play _ _ _ _ _)).2 hfinished
    exact ⟨hfinished, hend.2, hleast (by decide) _ hend.2⟩
  · have hfinished : stoppedEarly.Finished := ⟨by decide +kernel, rfl⟩
    obtain ⟨-, -, hall, -⟩ := search_outcomes 2 [] 0 true
    obtain ⟨-, -, hnothing, -⟩ := (hall stoppedEarly (leadsTo_play _ _ _ _ _)).2 hfinished
    exact ⟨hfinished, hnothing rfl⟩
  · -- no score is above 256, so that the search runs through all nonces
    obtain ⟨-, -, hall, s, hleads, hfinished, hstop, -⟩ := search_outcomes 1 [] 257 false
    obtain ⟨hreaches, hnothing, -⟩ := (hall s hleads).2 hfinished
    have houtcome : s.outcome = none := by
      by_contra hsome
      obtain ⟨nonce, hnonce⟩ := Option.ne_none_iff_exists'.mp hsome
      exact absurd (hreaches nonce hnonce) (Nat.not_le_of_lt (Nat.lt_succ_of_le (workScore_le _)))
    exact ⟨s, hleads, hfinished, hstop, houtcome, hnothing houtcome hstop⟩

end LedgerWatch
