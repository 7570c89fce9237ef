import LedgerWatch.Mining.Clock
import LedgerWatch.Proofs.Mining.Search
import LedgerWatch.Proofs.Wire.Block

/-!
# Sealed blocks are valid

A block that sealing hands back reaches the score asked for and differs from the block it was given
in its nonce and, if parents were refreshed, in its strong parents only. Every search is made over
the head of the block as it is at that moment, so this holds after any number of searches that took
too long.

## Main definitions

- `SearchSchedule`, `scheduledEnv`: searches that go as a schedule says
- `SealEnv.noting`: an environment that notes the answers of its refresher
- `SealBegins`, `SealContinues`: what the start of sealing and one search may come to
- `Refreshed`: what the answers of the refresher make of a block
- `SealPhase.Sound`: what holds of every phase

## Main results

- `SealPhase.Sound.sealStep`, `SealPhase.Sound.sealBlock`: one search and a whole sealing
- `sealBlock_scheduledEnv_valid`: sealed blocks are valid
-/

namespace LedgerWatch

/-- How one search goes: what happens in it one after the other, and whether a cancellation ends
it. -/
structure SearchSchedule where
  moves : List SearchMove
  cancelled : Bool

/-- How a search ends under a schedule. After a cancellation nothing that it finds counts. -/
def Miner.searchUnder (m : Miner) (schedule : SearchSchedule) (head : Bytes) (target : UInt32) :
    SearchEnd :=
  if schedule.cancelled then .cancelled
  else
    match ((m.start head target false).play schedule.moves).winner with
    | some nonce => .found nonce
    | none => .timedOut

variable {ω : Type}

/-- Sealing in which each search goes as a schedule says that may depend on everything before. -/
def scheduledEnv (m : Miner) (isCancelled : ω → Bool)
    (schedule : Bytes → UInt32 → ω → ω × SearchSchedule)
    (refresh? : Option (ω → ω × Except Fault (List BlockId))) : SealEnv ω where
  isCancelled
  search head target w := ((schedule head target w).1,
    m.searchUnder (schedule head target w).2 head target)
  refresh?

/-- The searches of an environment find nonces that reach the target only. -/
def SealEnv.FindsReaching (env : SealEnv ω) : Prop :=
  ∀ head target w nonce, (env.search head target w).2 = .found nonce → reaches head target nonce

theorem scheduledEnv_findsReaching (m : Miner) (isCancelled : ω → Bool)
    (schedule : Bytes → UInt32 → ω → ω × SearchSchedule)
    (refresh? : Option (ω → ω × Except Fault (List BlockId))) :
    (scheduledEnv m isCancelled schedule refresh?).FindsReaching := by
  intro head target w nonce h
  simp only [scheduledEnv, Miner.searchUnder] at h
  split at h
  · simp at h
  · split at h
    next found hwinner =>
      rw [← SearchEnd.found.inj h]
      exact m.reaches_of_play hwinner
    next => simp at h

/-- The environment, which also notes every answer of the refresher. -/
def SealEnv.noting (env : SealEnv ω) : SealEnv (ω × List (Except Fault (List BlockId))) where
  isCancelled w := env.isCancelled w.1
  search head target w := (((env.search head target w.1).1, w.2), (env.search head target w.1).2)
  refresh? := env.refresh?.map fun refresh w =>
    (((refresh w.1).1, w.2 ++ [(refresh w.1).2]), (refresh w.1).2)

/-- The answers that the refresher gives while a block is sealed. -/
def refreshAnswers (env : SealEnv ω) (codec : Codec) (api : Parameters) (block : Block)
    (searches : Nat) (w : ω) : List (Except Fault (List BlockId)) :=
  (sealBlock env.noting codec api block searches (w, [])).1.2

/-- What the start of sealing may come to, with the answers of the refresher noted. -/
inductive SealBegins (env : SealEnv ω) (codec : Codec) (api : Parameters) (block : Block) :
    (ω × List (Except Fault (List BlockId))) × SealPhase → Prop
  | given {w : ω} (hparents : block.strongParents ≠ []) :
      SealBegins env codec api block ((w, []), sealWithParents env codec api block w)
  | notGiven {w : ω} (hparents : block.strongParents = []) :
      SealBegins env codec api block ((w, []), .done block (.error .parentsNotGiven))
  | notFetched {w : ω} {fault : Fault} (hparents : block.strongParents = []) :
      SealBegins env codec api block ((w, [.error fault]), .done block (.error fault))
  | fetched {w : ω} {parents : List BlockId} (hparents : block.strongParents = []) :
      SealBegins env codec api block ((w, [.ok parents]),
        sealWithParents env codec api { block with strongParents := parents } w)

theorem begins_beginSeal (env : SealEnv ω) (codec : Codec) (api : Parameters) (block : Block)
    (w : ω) :
    SealBegins env codec api block (beginSeal env.noting codec api block (w, [])) := by
  unfold beginSeal
  by_cases hempty : block.strongParents = []
  · rw [if_pos (List.isEmpty_iff.mpr hempty)]
    cases hrefresh : env.refresh? with
    | none =>
      simp only [SealEnv.noting, hrefresh, Option.map_none]
      exact .notGiven hempty
    | some refresh =>
      rcases hanswer : refresh w with ⟨w', fault | parents⟩
      · simp only [SealEnv.noting, hrefresh, hanswer, Option.map_some]
        exact .notFetched hempty
      · simp only [SealEnv.noting, hrefresh, hanswer, Option.map_some]
        exact .fetched hempty
  · rw [if_neg (mt List.isEmpty_iff.mp hempty)]
    exact .given hempty

/-- What one search over a head may come to, with the answers of the refresher noted. -/
inductive SealContinues (env : SealEnv ω) (codec : Codec) (api : Parameters) (current : Block)
    (head : Bytes) (answers : List (Except Fault (List BlockId))) :
    (ω × List (Except Fault (List BlockId))) × SealPhase → Prop
  | found {w : ω} {nonce : UInt64}
      (hfound : ∃ before, env.search head api.minPowScore before = (w, .found nonce)) :
      SealContinues env codec api current head answers ((w, answers),
        .done { current with nonce } (.ok (head.length + nonceLength)))
  /-- The search ends without a nonce, and the refresher is not asked. -/
  | ended {w : ω} {fault : Fault} :
      SealContinues env codec api current head answers ((w, answers),
        .done current (.error fault))
  | notFetched {w : ω} {fault : Fault} :
      SealContinues env codec api current head answers ((w, answers ++ [.error fault]),
        .done current (.error (if env.isCancelled w then .aborted else fault)))
  | fetched {w : ω} {parents : List BlockId} :
      SealContinues env codec api current head answers ((w, answers ++ [.ok parents]),
        searchOver codec api { current with strongParents := parents })

theorem continues_retarget (env : SealEnv ω) (codec : Codec) (api : Parameters) (current : Block)
    (head : Bytes) (w : ω) (answers : List (Except Fault (List BlockId))) :
    SealContinues env codec api current head answers
      (retarget env.noting codec api current (w, answers)) := by
  unfold retarget
  split
  · exact .ended
  · cases hrefresh : env.refresh? with
    | none =>
      simp only [SealEnv.noting, hrefresh, Option.map_none]
      exact .ended
    | some refresh =>
      rcases hanswer : refresh w with ⟨w', fault | parents⟩
      · simp only [SealEnv.noting, hrefresh, hanswer, Option.map_some]
        exact .notFetched
      · simp only [SealEnv.noting, hrefresh, hanswer, Option.map_some]
        exact .fetched

theorem continues_sealStep (env : SealEnv ω) (codec : Codec) (api : Parameters) (current : Block)
    (head : Bytes) (w : ω) (answers : List (Except Fault (List BlockId))) :
    SealContinues env codec api current head answers
      (sealStep env.noting codec api ((w, answers), .searching current head)) := by
  rcases hsearch : env.search head api.minPowScore w with ⟨w', outcome⟩
  have hnoted :
      env.noting.search head api.minPowScore (w, answers) = ((w', answers), outcome) := by
    simp [SealEnv.noting, hsearch]
  cases outcome with
  | found nonce =>
    simp only [sealStep, hnoted]
    exact .found ⟨w, hsearch⟩
  | timedOut =>
    simp only [sealStep, hnoted]
    exact continues_retarget env codec api current head w' answers
  | cancelled =>
    simp only [sealStep, hnoted]
    exact .ended
  | failed reason =>
    simp only [sealStep, hnoted]
    exact .ended

/-- What the answers of the refresher have made of a block: nothing but its nonce and its strong
parents may differ, and the parents are those of the last answer. -/
structure Refreshed (block : Block) (answers : List (Except Fault (List BlockId)))
    (current : Block) : Prop where
  frame : { current with strongParents := block.strongParents, nonce := block.nonce } = block
  unasked : answers = [] → current.strongParents = block.strongParents
  asked : ∀ answer, answers.getLast? = some answer → answer = .ok current.strongParents

/-- A sealed block of the given size. -/
structure Sealed (api : Parameters) (block : Block) (answers : List (Except Fault (List BlockId)))
    (sealed : Block) (size : Nat) : Prop where
  refreshed : Refreshed block answers sealed
  size_eq : size = (Wire.block.encode sealed).length
  unscored : api.minPowScore = 0 → sealed.nonce = 0
  scored : api.minPowScore ≠ 0 → api.minPowScore.toNat ≤ workScore (Wire.block.encode sealed)

/-- What holds of every phase in which the sealing of a block may stand. -/
def SealPhase.Sound (api : Parameters) (block : Block)
    (answers : List (Except Fault (List BlockId))) : SealPhase → Prop
  | .searching current head =>
    Refreshed block answers current ∧ head = Wire.blockBody current ∧ api.minPowScore ≠ 0
  | .done sealed (.ok size) => Sealed api block answers sealed size
  | .done _ (.error _) => True

theorem Refreshed.refl (block : Block) : Refreshed block [] block :=
  ⟨rfl, fun _ => rfl, by simp⟩

theorem Refreshed.nonce {block current : Block} {answers : List (Except Fault (List BlockId))}
    (h : Refreshed block answers current) (nonce : UInt64) :
    Refreshed block answers { current with nonce } :=
  ⟨h.frame, h.unasked, h.asked⟩

theorem Refreshed.parents {block current : Block} {answers : List (Except Fault (List BlockId))}
    (h : Refreshed block answers current) (parents : List BlockId) :
    Refreshed block (answers ++ [.ok parents]) { current with strongParents := parents } :=
  ⟨h.frame, by simp, by simp⟩

section Phases

variable {api : Parameters} {block current : Block}
  {answers : List (Except Fault (List BlockId))}

theorem searchOver_standard (api : Parameters) (current : Block) :
    searchOver Codec.standard api current = .searching current (Wire.blockBody current) := by
  rw [searchOver, blockHead_standard]

theorem Refreshed.sealWithParents (h : Refreshed block answers current) (env : SealEnv ω) (w : ω) :
    (sealWithParents env Codec.standard api current w).Sound api block answers := by
  unfold LedgerWatch.sealWithParents
  split
  next hzero => exact ⟨h.nonce 0, rfl, fun _ => rfl, fun hscore => absurd hzero hscore⟩
  next hscore =>
    split
    · trivial
    · rw [searchOver_standard]
      exact ⟨h, rfl, hscore⟩

/-- A nonce that reaches the score seals the block. -/
theorem Refreshed.found (h : Refreshed block answers current) (hscore : api.minPowScore ≠ 0)
    {nonce : UInt64} (hreaches : reaches (Wire.blockBody current) api.minPowScore nonce) :
    Sealed api block answers { current with nonce }
      ((Wire.blockBody current).length + nonceLength) := by
  have hencode : Wire.block.encode { current with nonce } =
      withNonce (Wire.blockBody current) nonce := by
    rw [Wire.encode_block, Wire.blockBody_nonce]
  refine ⟨h.nonce nonce, ?_, fun hzero => absurd hzero hscore, fun _ => ?_⟩
  · rw [hencode, length_withNonce]
  · rw [hencode]
    exact of_decide_eq_true hreaches

end Phases

variable {env : SealEnv ω} {api : Parameters} {block : Block}

theorem sound_beginSeal (env : SealEnv ω) (api : Parameters) (block : Block) (w : ω) :
    (beginSeal env.noting Codec.standard api block (w, [])).2.Sound api block
      (beginSeal env.noting Codec.standard api block (w, [])).1.2 := by
  have hbegins := begins_beginSeal env Codec.standard api block w
  generalize beginSeal env.noting Codec.standard api block (w, []) = begun at hbegins ⊢
  cases hbegins with
  | given hparents => exact (Refreshed.refl block).sealWithParents env _
  | notGiven hparents => trivial
  | notFetched hparents => trivial
  | fetched hparents => exact ((Refreshed.refl block).parents _).sealWithParents env _

/-- One search and what follows from its end. -/
theorem SealPhase.Sound.sealStep (henv : env.FindsReaching)
    {p : (ω × List (Except Fault (List BlockId))) × SealPhase} (h : p.2.Sound api block p.1.2) :
    (sealStep env.noting Codec.standard api p).2.Sound api block
      (sealStep env.noting Codec.standard api p).1.2 := by
  obtain ⟨⟨w, answers⟩, phase⟩ := p
  cases phase with
  | done sealed result => exact h
  | searching current head =>
    -- The head searched over is the body of the block as it is now, whatever it was encoded from.
    obtain ⟨hrefreshed, rfl, hscore⟩ := h
    have hcontinues :=
      continues_sealStep env Codec.standard api current (Wire.blockBody current) w answers
    generalize LedgerWatch.sealStep env.noting Codec.standard api
      ((w, answers), .searching current (Wire.blockBody current)) = after at hcontinues ⊢
    cases hcontinues with
    | found hfound =>
      obtain ⟨before, hbefore⟩ := hfound
      exact hrefreshed.found hscore (henv _ _ before _ (congrArg Prod.snd hbefore))
    | ended => trivial
    | notFetched => trivial
    | fetched =>
      rw [searchOver_standard]
      exact ⟨hrefreshed.parents _, rfl, hscore⟩

theorem sound_sealBlock (henv : env.FindsReaching) (api : Parameters) (block : Block)
    (searches : Nat) (w : ω) :
    (sealBlock env.noting Codec.standard api block searches (w, [])).2.Sound api block
      (refreshAnswers env Codec.standard api block searches w) := by
  unfold refreshAnswers sealBlock
  induction searches with
  | zero => exact sound_beginSeal env api block w
  | succ searches ih => exact ih.sealStep henv

/-! ## The notes change nothing -/

/-- Sealing without the notes. -/
def SealEnv.unnoted (p : (ω × List (Except Fault (List BlockId))) × SealPhase) : ω × SealPhase :=
  (p.1.1, p.2)

theorem unnoted_beginSeal (env : SealEnv ω) (codec : Codec) (api : Parameters) (block : Block)
    (w : ω) :
    SealEnv.unnoted (beginSeal env.noting codec api block (w, [])) =
      beginSeal env codec api block w := by
  unfold beginSeal
  split
  · cases hrefresh : env.refresh? with
    | none => simp [SealEnv.noting, hrefresh, SealEnv.unnoted]
    | some refresh =>
      rcases hanswer : refresh w with ⟨w', fault | parents⟩ <;>
        simp [SealEnv.noting, hrefresh, hanswer, SealEnv.unnoted, sealWithParents]
  · rfl

theorem unnoted_retarget (env : SealEnv ω) (codec : Codec) (api : Parameters) (current : Block)
    (w : ω) (answers : List (Except Fault (List BlockId))) :
    SealEnv.unnoted (retarget env.noting codec api current (w, answers)) =
      retarget env codec api current w := by
  by_cases hcancelled : env.isCancelled w
  · simp [retarget, SealEnv.noting, SealEnv.unnoted, hcancelled]
  · cases hrefresh : env.refresh? with
    | none => simp [retarget, SealEnv.noting, SealEnv.unnoted, hcancelled, hrefresh]
    | some refresh =>
      rcases hanswer : refresh w with ⟨w', fault | parents⟩ <;>
        simp [retarget, SealEnv.noting, SealEnv.unnoted, hcancelled, hrefresh, hanswer]

theorem unnoted_sealStep (env : SealEnv ω) (codec : Codec) (api : Parameters)
    (p : (ω × List (Except Fault (List BlockId))) × SealPhase) :
    SealEnv.unnoted (sealStep env.noting codec api p) =
      sealStep env codec api (SealEnv.unnoted p) := by
  obtain ⟨⟨w, answers⟩, phase⟩ := p
  cases phase with
  | done sealed result => rfl
  | searching current head =>
    rcases hsearch : env.search head api.minPowScore w with ⟨w', outcome⟩
    have hnoted :
        env.noting.search head api.minPowScore (w, answers) = ((w', answers), outcome) := by
      simp [SealEnv.noting, hsearch]
    cases outcome with
    | found nonce => simp [sealStep, SealEnv.unnoted, hnoted, hsearch]
    | cancelled => simp [sealStep, SealEnv.unnoted, hnoted, hsearch]
    | failed reason => simp [sealStep, SealEnv.unnoted, hnoted, hsearch]
    | timedOut => simpa [sealStep, SealEnv.unnoted, hnoted, hsearch] using
        unnoted_retarget env codec api current w' answers

/-- Noting the answers of the refresher does not change how a block is sealed. -/
theorem unnoted_sealBlock (env : SealEnv ω) (codec : Codec) (api : Parameters) (block : Block)
    (searches : Nat) (w : ω) :
    SealEnv.unnoted (sealBlock env.noting codec api block searches (w, [])) =
      sealBlock env codec api block searches w := by
  unfold sealBlock
  induction searches with
  | zero => exact unnoted_beginSeal env codec api block w
  | succ searches ih => rw [Nat.repeat, Nat.repeat, unnoted_sealStep, ih]

/-- A block that sealing hands back is the one that was given, but for its nonce and its strong
parents. The parents are those that were given unless the refresher was asked, and then those of its
last answer. The size is that of the encoding, which reaches the score asked for. -/
theorem sealed_of_sealBlock (henv : env.FindsReaching) {searches : Nat} {w : ω} {sealed : Block}
    {size : Nat}
    (h : (sealBlock env Codec.standard api block searches w).2 = .done sealed (.ok size)) :
    Sealed api block (refreshAnswers env Codec.standard api block searches w) sealed size := by
  -- The notes are there only to say which answer was the last.
  have hsound := sound_sealBlock henv api block searches w
  rw [← unnoted_sealBlock] at h
  rwa [show (sealBlock env.noting Codec.standard api block searches (w, [])).2 = _ from h] at hsound

/-! ## Searches under a clock -/

/-- A search that the clock may end finds nonces that reach the target only. -/
theorem reaches_of_clock_search {miner : Miner} {interval : Option Nat} {head : Bytes}
    {target : UInt32} {clock : Clock} {nonce : UInt64}
    (h : (clock.search miner interval head target).2 = .found nonce) :
    reaches head target nonce := by
  have hstart := miner.sound_start head target false
  have hending : ∀ s : NonceSearch, s.Sound head target →
      Clock.search.ending s = .found nonce → reaches head target nonce := by
    intro s hs hfound
    unfold Clock.search.ending at hfound
    split at hfound
    next found hwinner =>
      exact hs.winner nonce (hwinner.trans (congrArg _ (SearchEnd.found.inj hfound)))
    next => simp at hfound
  unfold Clock.search at h
  split at h
  · simp at h
  · dsimp only at h
    split at h
    next => exact hending _ hstart.finish h
    next steps _ => exact hending _ (hstart.run 0 steps).raiseStop.finish h
    next steps _ =>
      split at h
      next found hwinner =>
        exact (hstart.run 0 steps).winner nonce (hwinner.trans (congrArg _ (SearchEnd.found.inj h)))
      next => simp at h

theorem clockedEnv_findsReaching {τ : Type} (miner : Miner) (interval : Nat)
    (refresh? : Option (Clock × τ → (Clock × τ) × Except Fault (List BlockId))) :
    (clockedEnv miner interval refresh?).FindsReaching :=
  fun _ _ _ _ h => reaches_of_clock_search h

/-- Blocks that are sealed under the clock, which is how they are mined for a connection. -/
theorem sealed_of_clocked_sealBlock {τ : Type} {miner : Miner} {interval : Nat}
    {refresh? : Option (Clock × τ → (Clock × τ) × Except Fault (List BlockId))} {searches : Nat}
    {w : Clock × τ} {sealed : Block} {size : Nat}
    (h : (sealBlock (clockedEnv miner interval refresh?) Codec.standard api block searches w).2 =
      .done sealed (.ok size)) :
    Sealed api block (refreshAnswers (clockedEnv miner interval refresh?) Codec.standard api block
      searches w) sealed size :=
  sealed_of_sealBlock (clockedEnv_findsReaching miner interval refresh?) h

/-! ## Sealed blocks -/

/-- The same, with the encoding that the codec gives, for workers that take turns in any order and
are stopped at any time, and for any refresher and any moment of cancellation. -/
theorem sealBlock_scheduledEnv_valid (m : Miner) (isCancelled : ω → Bool)
    (schedule : Bytes → UInt32 → ω → ω × SearchSchedule)
    (refresh? : Option (ω → ω × Except Fault (List BlockId))) (api : Parameters)
    (block sealed : Block) (searches size : Nat) (w : ω)
    (h : (sealBlock (scheduledEnv m isCancelled schedule refresh?) Codec.standard api block
      searches w).2 = .done sealed (.ok size)) :
    { sealed with strongParents := block.strongParents, nonce := block.nonce } = block ∧
    (match (refreshAnswers (scheduledEnv m isCancelled schedule refresh?) Codec.standard api block
        searches w).getLast? with
      | none => sealed.strongParents = block.strongParents
      | some answer => answer = .ok sealed.strongParents) ∧
    ∃ data, Codec.standard.encodeBlock sealed api = .ok data ∧ size = data.length ∧
      if api.minPowScore = 0 then sealed.nonce = 0 else api.minPowScore.toNat ≤ workScore data := by
  have hsealed := sealed_of_sealBlock (scheduledEnv_findsReaching m isCancelled schedule refresh?) h
  refine ⟨hsealed.refreshed.frame, ?_, Wire.block.encode sealed, rfl, hsealed.size_eq, ?_⟩
  · split
    next hnone => exact hsealed.refreshed.unasked (List.getLast?_eq_none_iff.mp hnone)
    next answer hsome => exact hsealed.refreshed.asked answer hsome
  · split
    next hzero => exact hsealed.unscored hzero
    next hscore => exact hsealed.scored hscore

deriving instance DecidableEq for SealPhase

/-- An environment in which the first search takes too long, the second finds the first nonce, and
the refresher gives one parent less each time. -/
def slowStartEnv : SealEnv Nat :=
  scheduledEnv ⟨1, by decide⟩ (fun _ => false)
    (fun _ _ searches =>
      (searches + 1, ⟨if searches = 0 then [] else [.worker 0, .worker 0], false⟩))
    (some fun searches => (searches, .ok (List.replicate (2 - searches) .empty)))

theorem sealBlock_slowStartEnv_valid :
    (sealBlock slowStartEnv Codec.standard { minPowScore := 3 } { nonce := 7 } 2 0).2 =
      .done { strongParents := [.empty], nonce := 0 } (.ok 133) ∧
    ∃ data,
      Codec.standard.encodeBlock { strongParents := [.empty], nonce := 0 } { minPowScore := 3 } =
        .ok data ∧ 133 = data.length ∧ 3 ≤ workScore data := by
  have hsealed : (sealBlock slowStartEnv Codec.standard { minPowScore := 3 } { nonce := 7 } 2 0).2 =
      .done { strongParents := [.empty], nonce := 0 } (.ok 133) := by decide +kernel
  obtain ⟨-, -, data, hdata, hsize, hscore⟩ :=
    sealBlock_scheduledEnv_valid _ _ _ _ _ _ _ _ _ _ hsealed
  exact ⟨hsealed, data, hdata, hsize, by simpa using hscore⟩

end LedgerWatch
