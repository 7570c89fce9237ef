import LedgerWatch.Proofs.Mining.Seal

/-!
# What refreshing does to a block

Whatever the codec, the searches and the refresher do, sealing touches nothing of a block but its
strong parents and its nonce, and it ends with the first refresh that fails. What becomes of the
block, and what is reported, is told from the answers of the refresher.

## Main definitions

- `lastParents?`, `parentsAfter`, `Block.retargeted`: what the answers of the refresher make of a
  block
- `Supplied`: no call of the refresher has failed, and a block without parents has been given some
- `SealFailure`: the ways in which sealing fails, and what each of them leaves
- `SealPhase.Accounted`: what holds of every phase

## Main results

- `SealPhase.Accounted.sealStep`, `accounted_sealBlock`: one search and a whole sealing
- `sealBlock_failedRefresh`: what is reported of a refresh that fails
- `sealBlock_failure`: what a failure leaves of a block
- `sealBlock_parentless_iff`: when a block is left without strong parents
-/

namespace LedgerWatch

variable {ω : Type} {answers : List (Except Fault (List BlockId))}

/-- What the last call of the refresher that succeeded has brought. -/
def lastParents? (answers : List (Except Fault (List BlockId))) : Option (List BlockId) :=
  (answers.filterMap Except.toOption).getLast?

@[simp]
theorem lastParents?_concat_ok (parents : List BlockId) :
    lastParents? (answers ++ [.ok parents]) = some parents := by
  simp [lastParents?, Except.toOption]

@[simp]
theorem lastParents?_concat_error (fault : Fault) :
    lastParents? (answers ++ [.error fault]) = lastParents? answers := by
  simp [lastParents?, Except.toOption]

def parentsAfter (given : List BlockId) (answers : List (Except Fault (List BlockId))) :
    List BlockId :=
  (lastParents? answers).getD given

@[simp]
theorem parentsAfter_concat_ok (given parents : List BlockId) :
    parentsAfter given (answers ++ [.ok parents]) = parents := by
  simp [parentsAfter]

@[simp]
theorem parentsAfter_concat_error (given : List BlockId) (fault : Fault) :
    parentsAfter given (answers ++ [.error fault]) = parentsAfter given answers := by
  simp [parentsAfter]

theorem parentsAfter_eq_nil_iff {given : List BlockId}
    (h : given = [] → lastParents? answers ≠ none) :
    parentsAfter given answers = [] ↔ lastParents? answers = some [] := by
  unfold parentsAfter
  cases hlast : lastParents? answers with
  | none =>
    have hgiven : given ≠ [] := fun hnil => h hnil hlast
    simp [hgiven]
  | some parents => simp

def Block.retargeted (block : Block) (answers : List (Except Fault (List BlockId))) : Block :=
  { block with strongParents := parentsAfter block.strongParents answers }

theorem Block.retargeted_concat_ok (block : Block) (parents : List BlockId) :
    block.retargeted (answers ++ [.ok parents]) =
      { block.retargeted answers with strongParents := parents } := by
  simp [Block.retargeted]

/-- No call of the refresher has failed, and one was made if the block had no parents. -/
structure Supplied (block : Block) (answers : List (Except Fault (List BlockId))) : Prop where
  succeeded : ∀ answer ∈ answers, ∃ parents, answer = .ok parents
  asked : block.strongParents = [] → answers ≠ []

theorem Supplied.concat {block : Block} (h : Supplied block answers) (parents : List BlockId) :
    Supplied block (answers ++ [.ok parents]) := by
  refine ⟨fun answer hanswer => ?_, fun _ => by simp⟩
  rcases List.mem_append.mp hanswer with hold | hnew
  · exact h.succeeded answer hold
  · exact ⟨parents, List.mem_singleton.mp hnew⟩

theorem Supplied.error_notMem {block : Block} (h : Supplied block answers) (fault : Fault) :
    .error fault ∉ answers := by
  intro hmem
  obtain ⟨parents, hparents⟩ := h.succeeded _ hmem
  cases hparents

theorem Supplied.lastParents?_ne_none {block : Block} (h : Supplied block answers)
    (hparents : block.strongParents = []) : lastParents? answers ≠ none := by
  rcases List.eq_nil_or_concat answers with rfl | ⟨before, last, rfl⟩
  · exact absurd rfl (h.asked hparents)
  · obtain ⟨parents, rfl⟩ := h.succeeded last (by simp)
    simp

/-- How sealing fails, with the answers of the refresher, the block that is left and what is
reported. -/
inductive SealFailure (env : SealEnv ω) (codec : Codec) (api : Parameters) (block : Block) :
    List (Except Fault (List BlockId)) → ω → Block → Fault → Prop
  | parentsNotGiven {w : ω} (hparents : block.strongParents = []) :
      SealFailure env codec api block [] w block .parentsNotGiven
  /-- The first parents of a block cannot be fetched. -/
  | notSupplied {w : ω} {fault : Fault} (hparents : block.strongParents = []) :
      SealFailure env codec api block [.error fault] w block fault
  /-- No search is asked for, and the block with its nonce cannot be encoded. -/
  | unencoded {answers : List (Except Fault (List BlockId))} {w : ω} {fault : Fault}
      (hsupplied : Supplied block answers) (hscore : api.minPowScore = 0)
      (hencode : codec.encodeBlock { block.retargeted answers with nonce := 0 } api =
        .error fault) :
      SealFailure env codec api block answers w { block.retargeted answers with nonce := 0 } fault
  /-- A search cannot be made, or ends without a nonce and for good. -/
  | notSearched {answers : List (Except Fault (List BlockId))} {w : ω} {fault : Fault}
      (hsupplied : Supplied block answers) (hscore : api.minPowScore ≠ 0) :
      SealFailure env codec api block answers w (block.retargeted answers) fault
  /-- Fresh parents cannot be fetched after a search. -/
  | notRetargeted {answers : List (Except Fault (List BlockId))} {w : ω} {fault : Fault}
      (hsupplied : Supplied block answers) (hscore : api.minPowScore ≠ 0) :
      SealFailure env codec api block (answers ++ [.error fault]) w (block.retargeted answers)
        (if env.isCancelled w then .aborted else fault)

namespace SealFailure

variable {env : SealEnv ω} {codec : Codec} {api : Parameters} {block left : Block} {w : ω}
  {fault : Fault}

theorem frame (h : SealFailure env codec api block answers w left fault) :
    { left with strongParents := block.strongParents, nonce := block.nonce } = block := by
  cases h <;> rfl

theorem strongParents_eq (h : SealFailure env codec api block answers w left fault) :
    left.strongParents = parentsAfter block.strongParents answers := by
  cases h with
  | parentsNotGiven hparents => rfl
  | notSupplied hparents => rfl
  | unencoded hsupplied hscore hencode => rfl
  | notSearched hsupplied hscore => rfl
  | notRetargeted hsupplied hscore => exact (parentsAfter_concat_error _ _).symm

theorem nonce_eq (h : SealFailure env codec api block answers w left fault)
    (hsearch : api.minPowScore ≠ 0 ∨ ¬ Supplied block answers) : left.nonce = block.nonce := by
  cases h with
  | unencoded hsupplied hscore hencode =>
    rcases hsearch with hne | hnot
    · exact absurd hscore hne
    · exact absurd hsupplied hnot
  | _ => rfl

theorem encodeBlock_eq (h : SealFailure env codec api block answers w left fault)
    (hscore : api.minPowScore = 0) (hsupplied : Supplied block answers) :
    left.nonce = 0 ∧ codec.encodeBlock left api = .error fault := by
  cases h with
  | parentsNotGiven hparents => exact absurd rfl (hsupplied.asked hparents)
  | notSupplied hparents =>
    exact absurd (List.mem_singleton.mpr rfl) (hsupplied.error_notMem fault)
  | unencoded _ _ hencode => exact ⟨rfl, hencode⟩
  | notSearched _ hne => exact absurd hscore hne
  | notRetargeted _ hne => exact absurd hscore hne

end SealFailure

/-- What holds of every phase in which the sealing of a block may stand. -/
def SealPhase.Accounted (env : SealEnv ω) (codec : Codec) (api : Parameters) (block : Block)
    (answers : List (Except Fault (List BlockId))) (w : ω) : SealPhase → Prop
  | .searching current _ =>
    Supplied block answers ∧ api.minPowScore ≠ 0 ∧ current = block.retargeted answers
  | .done sealed (.ok _) =>
    Supplied block answers ∧ ∃ nonce, sealed = { block.retargeted answers with nonce }
  | .done left (.error fault) => SealFailure env codec api block answers w left fault

section Steps

variable {env : SealEnv ω} {codec : Codec} {api : Parameters} {block : Block} {w : ω}

theorem Supplied.searchOver (h : Supplied block answers) (hscore : api.minPowScore ≠ 0) :
    (searchOver codec api (block.retargeted answers)).Accounted env codec api block answers w := by
  unfold LedgerWatch.searchOver
  split
  · exact ⟨h, hscore, rfl⟩
  · exact .notSearched h hscore

theorem Supplied.sealWithParents (h : Supplied block answers) :
    (sealWithParents env codec api (block.retargeted answers) w).Accounted env codec api block
      answers w := by
  unfold LedgerWatch.sealWithParents
  split
  next hzero =>
    cases hencode : codec.encodeBlock { block.retargeted answers with nonce := 0 } api with
    | ok data =>
      dsimp only
      rw [hencode]
      exact ⟨h, 0, rfl⟩
    | error fault =>
      dsimp only
      rw [hencode]
      exact .unencoded h hzero hencode
  next hscore =>
    split
    · exact .notSearched h hscore
    · exact h.searchOver hscore

theorem accounted_beginSeal (env : SealEnv ω) (codec : Codec) (api : Parameters) (block : Block)
    (w : ω) :
    (beginSeal env.noting codec api block (w, [])).2.Accounted env codec api block
      (beginSeal env.noting codec api block (w, [])).1.2
      (beginSeal env.noting codec api block (w, [])).1.1 := by
  have hbegins := begins_beginSeal env codec api block w
  generalize beginSeal env.noting codec api block (w, []) = begun at hbegins ⊢
  cases hbegins with
  | given hparents =>
    have hsupplied : Supplied block [] := ⟨by simp, fun h => absurd h hparents⟩
    exact hsupplied.sealWithParents
  | notGiven hparents => exact .parentsNotGiven hparents
  | notFetched hparents => exact .notSupplied hparents
  | @fetched _ parents hparents =>
    have hsupplied : Supplied block [.ok parents] :=
      ⟨fun answer h => ⟨parents, List.mem_singleton.mp h⟩, fun _ => by simp⟩
    exact hsupplied.sealWithParents

/-- One search and what follows from its end. -/
theorem SealPhase.Accounted.sealStep
    {p : (ω × List (Except Fault (List BlockId))) × SealPhase}
    (h : p.2.Accounted env codec api block p.1.2 p.1.1) :
    (sealStep env.noting codec api p).2.Accounted env codec api block
      (sealStep env.noting codec api p).1.2 (sealStep env.noting codec api p).1.1 := by
  obtain ⟨⟨w, answers⟩, phase⟩ := p
  cases phase with
  | done sealed result => exact h
  | searching current head =>
    change Supplied block answers ∧ _ ∧ current = block.retargeted answers at h
    obtain ⟨hsupplied, hscore, rfl⟩ := h
    have hcontinues :=
      continues_sealStep env codec api (block.retargeted answers) head w answers
    generalize LedgerWatch.sealStep env.noting codec api
      ((w, answers), .searching (block.retargeted answers) head) = after at hcontinues ⊢
    cases hcontinues with
    | found hfound => exact ⟨hsupplied, _, rfl⟩
    | ended => exact .notSearched hsupplied hscore
    | notFetched => exact .notRetargeted hsupplied hscore
    | @fetched _ parents =>
      rw [← Block.retargeted_concat_ok]
      exact (hsupplied.concat parents).searchOver hscore

end Steps

theorem accounted_sealBlock (env : SealEnv ω) (codec : Codec) (api : Parameters) (block : Block)
    (searches : Nat) (w : ω) :
    (sealBlock env codec api block searches w).2.Accounted env codec api block
      (refreshAnswers env codec api block searches w)
      (sealBlock env codec api block searches w).1 := by
  rw [← unnoted_sealBlock]
  unfold refreshAnswers sealBlock
  induction searches with
  | zero => exact accounted_beginSeal env codec api block w
  | succ searches ih => exact ih.sealStep

/-! ## Reports of a refresh that fails -/

/-- A refresh that fails ends sealing. After a search it is reported as an abort if sealing was
cancelled meanwhile, but the fault of the first call for a block without parents is always reported
as it is. -/
theorem sealBlock_failedRefresh (env : SealEnv ω) (codec : Codec) (api : Parameters)
    (block : Block) (searches : Nat) (w : ω) (fault : Fault)
    (h : .error fault ∈ refreshAnswers env codec api block searches w) :
    ∃ before left reported,
      refreshAnswers env codec api block searches w = before ++ [.error fault] ∧
      (sealBlock env codec api block searches w).2 = .done left (.error reported) ∧
      (env.isCancelled (sealBlock env codec api block searches w).1 = true →
        before ≠ [] ∨ block.strongParents ≠ [] → reported = .aborted) ∧
      (env.isCancelled (sealBlock env codec api block searches w).1 = false →
        reported = fault) ∧
      (before = [] → block.strongParents = [] → reported = fault) := by
  have haccounted := accounted_sealBlock env codec api block searches w
  generalize refreshAnswers env codec api block searches w = answers at h haccounted
  generalize sealBlock env codec api block searches w = sealed at haccounted
  obtain ⟨w', phase⟩ := sealed
  match phase, haccounted with
  | .searching _ _, haccounted => exact absurd h (haccounted.1.error_notMem fault)
  | .done _ (.ok _), haccounted => exact absurd h (haccounted.1.error_notMem fault)
  | .done left (.error reported), haccounted =>
    change SealFailure env codec api block answers w' left reported at haccounted
    cases haccounted with
    | parentsNotGiven hparents => simp at h
    | notSupplied hparents =>
      obtain rfl : fault = reported := by simpa using h
      exact ⟨[], _, fault, rfl, rfl, fun _ hretarget => by simp [hparents] at hretarget,
        fun _ => rfl, fun _ _ => rfl⟩
    | unencoded hsupplied hscore hencode => exact absurd h (hsupplied.error_notMem fault)
    | notSearched hsupplied hscore => exact absurd h (hsupplied.error_notMem fault)
    | @notRetargeted before _ given hsupplied hscore =>
      have hgiven : fault = given := by
        rcases List.mem_append.mp h with hbefore | hlast
        · exact absurd hbefore (hsupplied.error_notMem fault)
        · simpa using hlast
      subst hgiven
      refine ⟨before, _, _, rfl, rfl, fun hcancelled _ => if_pos hcancelled,
        fun hcancelled => if_neg (by simp [hcancelled]), fun hnone hparents => ?_⟩
      exact absurd hnone (hsupplied.asked hparents)

/-- A scripted refresher, and searches that have no time at all. -/
def hastyEnv : SealEnv (Clock × RefreshScript) :=
  clockedEnv (Miner.ofThreads 1) 0 (some RefreshScript.refresh)

/-- Fresh parents once, and then a failure while sealing is cancelled. -/
def lostNode : Clock × RefreshScript :=
  ({}, { answers := [⟨.ok [.empty, .empty], false⟩, ⟨.error (.unavailable "gone"), true⟩] })

theorem sealBlock_failedRefresh_lostNode :
    ∃ left, (sealBlock hastyEnv Codec.standard { minPowScore := 1 } {} 1 lostNode).2 =
      .done left (.error .aborted) := by
  have hanswers :
      refreshAnswers hastyEnv Codec.standard { minPowScore := 1 } {} 1 lostNode =
        [.ok [.empty, .empty], .error (.rpc (.unavailable "gone"))] := by decide +kernel
  obtain ⟨before, left, reported, hbefore, hdone, haborted, -⟩ :=
    sealBlock_failedRefresh hastyEnv Codec.standard { minPowScore := 1 } {} 1 lostNode
      (.rpc (.unavailable "gone")) (by simp [hanswers])
  have hsome : before ≠ [] := by
    rintro rfl
    simp [hanswers] at hbefore
  rw [haborted (by decide +kernel) (.inl hsome)] at hdone
  exact ⟨left, hdone⟩

/-- A cancellation during the first call of the refresher, for a block without parents. -/
theorem sealScripted_cancelled_firstRefresh :
    (sealScripted Codec.standard { minPowScore := 1 } {} 1 1
      (some [⟨.error (.unavailable "gone"), true⟩]) {}).1.1.cancelled = true ∧
    (sealScripted Codec.standard { minPowScore := 1 } {} 1 1
      (some [⟨.error (.unavailable "gone"), true⟩]) {}).2 =
        .done {} (.error (.rpc (.unavailable "gone"))) := by
  decide +kernel

/-! ## What a failure leaves -/

/-- A failure leaves everything of a block but its strong parents and its nonce. The parents are
those of the last refresh that succeeded, if any did. The nonce is as it was, but where no search is
asked for and the block cannot be encoded: there it is zero. -/
theorem sealBlock_failure (env : SealEnv ω) (codec : Codec) (api : Parameters) (block left : Block)
    (searches : Nat) (w : ω) (fault : Fault)
    (h : (sealBlock env codec api block searches w).2 = .done left (.error fault)) :
    { left with strongParents := block.strongParents, nonce := block.nonce } = block ∧
    left.strongParents =
      parentsAfter block.strongParents (refreshAnswers env codec api block searches w) ∧
    (api.minPowScore ≠ 0 ∨ ¬ Supplied block (refreshAnswers env codec api block searches w) →
      left.nonce = block.nonce) ∧
    (api.minPowScore = 0 → Supplied block (refreshAnswers env codec api block searches w) →
      left.nonce = 0 ∧ codec.encodeBlock left api = .error fault) := by
  have hfailure := accounted_sealBlock env codec api block searches w
  rw [h] at hfailure
  change SealFailure env codec api block _ _ left fault at hfailure
  exact ⟨hfailure.frame, hfailure.strongParents_eq, hfailure.nonce_eq, hfailure.encodeBlock_eq⟩

theorem sealBlock_failure_lostNode :
    ∃ left, (sealBlock hastyEnv Codec.standard { minPowScore := 1 } { nonce := 7 } 1
        lostNode).2 = .done left (.error .aborted) ∧
      left.strongParents = [.empty, .empty] ∧ left.nonce = 7 := by
  have hdone :
      (sealBlock hastyEnv Codec.standard { minPowScore := 1 } { nonce := 7 } 1 lostNode).2 =
        .done { strongParents := [.empty, .empty], nonce := 7 } (.error .aborted) := by
    decide +kernel
  obtain ⟨-, hparents, hnonce, -⟩ := sealBlock_failure _ _ _ _ _ _ _ _ hdone
  exact ⟨_, hdone, hparents.trans (by decide +kernel), hnonce (.inl (by decide))⟩

/-- No search is asked for, and the codec cannot encode blocks. -/
theorem sealScripted_unencoded :
    (sealScripted (Codec.impaired { failBlock := true }) { minPowScore := 0 }
      { strongParents := [.empty], nonce := 99 } 1 1 none {}).2 =
        .done { strongParents := [.empty], nonce := 0 } (.error Codec.injected) := by
  decide +kernel

/-! ## Blocks without parents -/

/-- In every phase a block has the parents that the refresher has left it with. -/
theorem strongParents_sealBlock (env : SealEnv ω) (codec : Codec) (api : Parameters)
    (block : Block) (searches : Nat) (w : ω) :
    (sealBlock env codec api block searches w).2.block.strongParents =
      parentsAfter block.strongParents (refreshAnswers env codec api block searches w) := by
  have haccounted := accounted_sealBlock env codec api block searches w
  generalize refreshAnswers env codec api block searches w = answers at haccounted
  generalize sealBlock env codec api block searches w = sealed at haccounted
  obtain ⟨w', phase⟩ := sealed
  match phase, haccounted with
  | .searching current head, haccounted => exact congrArg Block.strongParents haccounted.2.2
  | .done _ (.ok size), haccounted =>
    obtain ⟨-, nonce, hsealed⟩ := haccounted
    exact congrArg Block.strongParents hsealed
  | .done left (.error fault), haccounted =>
    exact SealFailure.strongParents_eq haccounted

/-- A block is sealed without strong parents exactly if its last refresh has brought none, and only
so does a block lose the parents that it had. -/
theorem sealBlock_parentless_iff (env : SealEnv ω) (codec : Codec) (api : Parameters)
    (block : Block) (searches : Nat) (w : ω) :
    (∀ sealed size, (sealBlock env codec api block searches w).2 = .done sealed (.ok size) →
      (sealed.strongParents = [] ↔
        lastParents? (refreshAnswers env codec api block searches w) = some [])) ∧
    (block.strongParents ≠ [] →
      ((sealBlock env codec api block searches w).2.block.strongParents = [] ↔
        lastParents? (refreshAnswers env codec api block searches w) = some [])) := by
  have hparents := strongParents_sealBlock env codec api block searches w
  refine ⟨fun sealed size hdone => ?_, fun hgiven => ?_⟩
  · have haccounted := accounted_sealBlock env codec api block searches w
    rw [hdone] at haccounted hparents
    have hsupplied : Supplied block (refreshAnswers env codec api block searches w) := haccounted.1
    change sealed.strongParents = _ at hparents
    rw [hparents]
    exact parentsAfter_eq_nil_iff hsupplied.lastParents?_ne_none
  · rw [hparents]
    exact parentsAfter_eq_nil_iff fun hnil => absurd hnil hgiven

theorem sealBlock_parentless_iff_lostNode :
    (∃ sealed size, (sealBlock hastyEnv Codec.standard {} {} 1 lostNode).2 =
      .done sealed (.ok size) ∧ sealed.strongParents ≠ []) ∧
    (sealBlock hastyEnv Codec.standard { minPowScore := 1 } { strongParents := [.empty] } 1
      ({}, { answers := [⟨.ok [], false⟩] })).2.block.strongParents = [] := by
  refine ⟨?_, ?_⟩
  · have hdone : (sealBlock hastyEnv Codec.standard {} {} 1 lostNode).2 =
        .done { strongParents := [.empty, .empty] } (.ok 169) := by decide +kernel
    refine ⟨_, _, hdone, ?_⟩
    rw [Ne, (sealBlock_parentless_iff _ _ _ _ _ _).1 _ _ hdone]
    decide +kernel
  · rw [(sealBlock_parentless_iff _ _ _ _ _ _).2 (by decide)]
    decide +kernel

/-- Refreshes that bring no parents, for a block without any and for one that had some. -/
theorem sealScripted_parentless :
    (sealScripted Codec.standard { minPowScore := 0 } {} 1 1 (some [⟨.ok [], false⟩]) {}).2 =
      .done {} (.ok 97) ∧
    (sealScripted Codec.standard { minPowScore := 1 } { strongParents := [.empty] } 1 0
      (some [⟨.ok [], false⟩]) {}).2.block.strongParents = [] := by
  decide +kernel

end LedgerWatch
