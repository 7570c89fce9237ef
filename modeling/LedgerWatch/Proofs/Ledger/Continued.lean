import Mathlib.Data.List.Induction
import LedgerWatch.Proofs.Ledger.Batches

/-!
# Streams that go on after a fault

Records may be fed on after one of them has failed. A record that is refused leaves the assembler
as it was, and a closing marker that disagrees with the batch takes it away. So a batch is made of
the outputs that could be verified since the marker that opened it, whatever failed in between.

## Main definitions

- `Assembler.Refuses`, `Assembler.Effect`: what one record does
- `Assembler.feed`: a whole stream, faults included
- `Assembler.Gathers`: the batch open after a stream, told from the records since its opening marker

## Main results

- `Assembler.process_effect`: every record has one of the effects
- `Assembler.gathers_of_feed`: what open and delivered batches are made of
-/

namespace LedgerWatch

namespace Assembler

/-- The records that an assembler refuses, each with its fault. -/
inductive Refuses (codec : Codec) (ctx : BatchContext) : Assembler → LedgerRecord → Fault → Prop
  | alreadyOpen {marker batch} (opening : marker.kind = .opening) :
      Refuses codec ctx ⟨some batch⟩ (.marker marker) .batchAlreadyOpen
  | noParameters {marker fault} (opening : marker.kind = .opening)
      (unknown : ctx.apiForSlot marker.commitmentId.slot = .error fault) :
      Refuses codec ctx idle (.marker marker) fault
  | notOpen {record} (notOpening : ∀ marker, record = .marker marker → marker.kind = .closing) :
      Refuses codec ctx idle record .noOpenBatch
  | badSpent {batch spent fault}
      (bad : verifySpent codec batch.api batch.latestCommitmentId spent = .error fault) :
      Refuses codec ctx ⟨some batch⟩ (.consumed spent) fault
  | badCreated {batch raw fault}
      (bad : verifyUnspent codec batch.api batch.latestCommitmentId raw = .error fault) :
      Refuses codec ctx ⟨some batch⟩ (.created raw) fault

/-- What a record does to an assembler, and the result with which it is processed. -/
inductive Effect (codec : Codec) (ctx : BatchContext) :
    Assembler → LedgerRecord → Assembler → Except Fault (Option LedgerUpdate) → Prop
  | opens {marker api} (opening : marker.kind = .opening)
      (known : ctx.apiForSlot marker.commitmentId.slot = .ok api) :
      Effect codec ctx idle (.marker marker)
        ⟨some {
          api
          commitmentId := marker.commitmentId
          latestCommitmentId := ctx.latestCommitmentId }⟩ (.ok none)
  | consumes {batch spent output}
      (verified : verifySpent codec batch.api batch.latestCommitmentId spent = .ok output) :
      Effect codec ctx ⟨some batch⟩ (.consumed spent)
        ⟨some { batch with consumed := batch.consumed ++ [output] }⟩ (.ok none)
  | creates {batch raw output}
      (verified : verifyUnspent codec batch.api batch.latestCommitmentId raw = .ok output) :
      Effect codec ctx ⟨some batch⟩ (.created raw)
        ⟨some { batch with created := batch.created ++ [output] }⟩ (.ok none)
  | delivers {marker batch} (closing : marker.kind = .closing) (agrees : closes marker batch) :
      Effect codec ctx ⟨some batch⟩ (.marker marker) idle (.ok (some batch))
  | discards {marker batch} (closing : marker.kind = .closing) (disagrees : ¬ closes marker batch) :
      Effect codec ctx ⟨some batch⟩ (.marker marker) idle (.error .batchMismatch)
  | refuses {a record fault} (refused : Refuses codec ctx a record fault) :
      Effect codec ctx a record a (.error fault)

theorem process_effect (codec : Codec) (ctx : BatchContext) (record : LedgerRecord)
    (a : Assembler) :
    Effect codec ctx a record (a.process codec ctx record).1 (a.process codec ctx record).2 := by
  obtain ⟨_ | batch⟩ := a
  · cases record with
    | marker marker =>
      cases hkind : marker.kind with
      | opening =>
        cases hapi : ctx.apiForSlot marker.commitmentId.slot with
        | error fault =>
          simpa [process, hkind, openBatch, hapi] using .refuses (.noParameters hkind hapi)
        | ok api => simpa [process, hkind, openBatch, hapi] using .opens hkind hapi
      | closing =>
        have hrefused : Refuses codec ctx idle (.marker marker) .noOpenBatch :=
          .notOpen fun other h => by rw [← LedgerRecord.marker.inj h, hkind]
        simpa [process, hkind, closeBatch] using .refuses hrefused
    | consumed spent => exact .refuses (.notOpen fun marker h => by cases h)
    | created raw => exact .refuses (.notOpen fun marker h => by cases h)
  · cases record with
    | marker marker =>
      cases hkind : marker.kind with
      | opening => simpa [process, hkind, openBatch] using .refuses (.alreadyOpen hkind)
      | closing =>
        by_cases hcloses : closes marker batch = true
        · simpa [process, hkind, closeBatch, hcloses] using .delivers hkind hcloses
        · simpa [process, hkind, closeBatch, hcloses] using .discards hkind hcloses
    | consumed spent =>
      cases hverify : verifySpent codec batch.api batch.latestCommitmentId spent with
      | error fault => simpa [process, collect, hverify] using .refuses (.badSpent hverify)
      | ok output => simpa [process, collect, hverify] using .consumes hverify
    | created raw =>
      cases hverify : verifyUnspent codec batch.api batch.latestCommitmentId raw with
      | error fault => simpa [process, collect, hverify] using .refuses (.badCreated hverify)
      | ok output => simpa [process, collect, hverify] using .creates hverify

/-- The update that is delivered with a result, if one is. -/
def delivered? : Except Fault (Option LedgerUpdate) → Option LedgerUpdate
  | .ok update => update
  | .error _ => none

/-- Processes all records of a stream, those after a fault like any others. Gives the assembler
after them and the updates that were delivered. -/
def feed (codec : Codec) : List Arrival → Assembler → Assembler × List LedgerUpdate
  | [], a => (a, [])
  | arrival :: rest, a =>
    let next := a.process codec arrival.ctx arrival.record
    let later := feed codec rest next.1
    (later.1, (delivered? next.2).toList ++ later.2)

theorem feed_append (codec : Codec) (past rest : List Arrival) (a : Assembler) :
    feed codec (past ++ rest) a =
      ((feed codec rest (feed codec past a).1).1,
        (feed codec past a).2 ++ (feed codec rest (feed codec past a).1).2) := by
  induction past generalizing a with
  | nil => rfl
  | cons arrival past ih => simp only [List.cons_append, feed, ih, List.append_assoc]

/-- `marker` opened the batch under `ctx`, and of the records of `body` that came after it the batch
holds the outputs that could be verified. None of them closed it. -/
structure Gathers (codec : Codec) (past : List Arrival) (ctx : BatchContext) (marker : BatchMarker)
    (body : List Arrival) (batch : LedgerUpdate) : Prop where
  split : ∃ before, past = before ++ ⟨ctx, .marker marker⟩ :: body ∧
    (feed codec before idle).1 = idle
  opening : marker.kind = .opening
  unclosed : ∀ a ∈ body, a.closing? = none
  api : ctx.apiForSlot marker.commitmentId.slot = .ok batch.api
  commitmentId : batch.commitmentId = marker.commitmentId
  latestCommitmentId : batch.latestCommitmentId = ctx.latestCommitmentId
  consumed : batch.consumed = (body.filterMap Arrival.spent?).filterMap fun spent =>
    (verifySpent codec batch.api batch.latestCommitmentId spent).toOption
  created : batch.created = (body.filterMap Arrival.created?).filterMap fun raw =>
    (verifyUnspent codec batch.api batch.latestCommitmentId raw).toOption

variable {codec : Codec} {past : List Arrival} {ctx : BatchContext} {marker : BatchMarker}
  {body : List Arrival} {batch : LedgerUpdate}

/-- A record that does not close the batch adds what can be verified of it. -/
theorem Gathers.concat (h : Gathers codec past ctx marker body batch) (arrival : Arrival)
    (consumed created : List VerifiedOutput) (hclosing : arrival.closing? = none)
    (hconsumed : consumed = arrival.spent?.toList.filterMap fun spent =>
      (verifySpent codec batch.api batch.latestCommitmentId spent).toOption)
    (hcreated : created = arrival.created?.toList.filterMap fun raw =>
      (verifyUnspent codec batch.api batch.latestCommitmentId raw).toOption) :
    Gathers codec (past ++ [arrival]) ctx marker (body ++ [arrival])
      { batch with
        consumed := batch.consumed ++ consumed
        created := batch.created ++ created } := by
  obtain ⟨before, rfl, hidle⟩ := h.split
  have hlast : ∀ {α : Type} (f : Arrival → Option α),
      [arrival].filterMap f = (f arrival).toList := by
    intro α f
    cases hf : f arrival <;> simp [hf]
  exact {
    split := ⟨before, by simp, hidle⟩
    opening := h.opening
    unclosed := by
      intro a ha
      rcases List.mem_append.mp ha with hbody | hnew
      · exact h.unclosed a hbody
      · rwa [List.mem_singleton.mp hnew]
    api := h.api
    commitmentId := h.commitmentId
    latestCommitmentId := h.latestCommitmentId
    consumed := by
      rw [List.filterMap_append, List.filterMap_append, hlast, ← h.consumed, ← hconsumed]
    created := by
      rw [List.filterMap_append, List.filterMap_append, hlast, ← h.created, ← hcreated] }

/-- A record that does not close the batch and of which nothing can be verified adds nothing. -/
theorem Gathers.concat_nothing (h : Gathers codec past ctx marker body batch) {arrival : Arrival}
    (hclosing : arrival.closing? = none)
    (hspent : ∀ spent ∈ arrival.spent?, ∃ fault,
      verifySpent codec batch.api batch.latestCommitmentId spent = .error fault)
    (hcreated : ∀ raw ∈ arrival.created?, ∃ fault,
      verifyUnspent codec batch.api batch.latestCommitmentId raw = .error fault) :
    Gathers codec (past ++ [arrival]) ctx marker (body ++ [arrival]) batch := by
  have hconcat := h.concat arrival [] [] hclosing
  rw [List.append_nil, List.append_nil] at hconcat
  apply hconcat
  · cases hs : arrival.spent? with
    | none => rfl
    | some spent =>
      obtain ⟨fault, hfault⟩ := hspent spent hs
      simp [hfault, Except.toOption]
  · cases hc : arrival.created? with
    | none => rfl
    | some raw =>
      obtain ⟨fault, hfault⟩ := hcreated raw hc
      simp [hfault, Except.toOption]

theorem Gathers.refused (h : Gathers codec past ctx marker body batch) {arrival : Arrival}
    {fault : Fault} (hrefused : Refuses codec arrival.ctx ⟨some batch⟩ arrival.record fault) :
    Gathers codec (past ++ [arrival]) ctx marker (body ++ [arrival]) batch := by
  obtain ⟨now, record⟩ := arrival
  cases hrefused with
  | @alreadyOpen marker _ opening =>
    have hclosing : Arrival.closing? ⟨now, .marker marker⟩ = none := by
      simp [Arrival.closing?, Arrival.marker?, opening]
    exact h.concat_nothing hclosing (by simp [Arrival.spent?]) (by simp [Arrival.created?])
  | badSpent bad =>
    refine h.concat_nothing rfl ?_ (by simp [Arrival.created?])
    intro spent hspent
    obtain rfl := Option.some.inj hspent
    exact ⟨_, bad⟩
  | badCreated bad =>
    refine h.concat_nothing rfl (by simp [Arrival.spent?]) ?_
    intro raw hraw
    obtain rfl := Option.some.inj hraw
    exact ⟨_, bad⟩

/-- The batch open after a record, if the one open before it is what the past amounts to. -/
theorem gathers_of_effect {arrival : Arrival} {a' : Assembler}
    {result : Except Fault (Option LedgerUpdate)}
    (heffect : Effect codec arrival.ctx (feed codec past idle).1 arrival.record a' result)
    (hopen : ∀ batch, (feed codec past idle).1.batch = some batch →
      ∃ ctx marker body, Gathers codec past ctx marker body batch) :
    ∀ batch, a'.batch = some batch →
      ∃ ctx marker body, Gathers codec (past ++ [arrival]) ctx marker body batch := by
  obtain ⟨now, record⟩ := arrival
  generalize ha : (feed codec past idle).1 = a at heffect hopen
  intro after hafter
  cases heffect with
  | @opens marker api opening known =>
    obtain rfl := Option.some.inj hafter
    refine ⟨now, marker, [], ⟨past, rfl, ha⟩, opening, by simp, known, rfl, rfl, rfl, rfl⟩
  | @consumes batch spent output verified =>
    obtain rfl := Option.some.inj hafter
    obtain ⟨ctx, marker, body, h⟩ := hopen batch rfl
    refine ⟨ctx, marker, body ++ [⟨now, .consumed spent⟩], ?_⟩
    have hconcat := h.concat ⟨now, .consumed spent⟩ [output] [] rfl
    rw [List.append_nil] at hconcat
    exact hconcat (by simp [Arrival.spent?, verified, Except.toOption]) rfl
  | @creates batch raw output verified =>
    obtain rfl := Option.some.inj hafter
    obtain ⟨ctx, marker, body, h⟩ := hopen batch rfl
    refine ⟨ctx, marker, body ++ [⟨now, .created raw⟩], ?_⟩
    have hconcat := h.concat ⟨now, .created raw⟩ [] [output] rfl
    rw [List.append_nil] at hconcat
    exact hconcat rfl (by simp [Arrival.created?, verified, Except.toOption])
  | delivers => cases hafter
  | discards => cases hafter
  | refuses refused =>
    obtain ⟨ctx, marker, body, h⟩ := hopen after hafter
    obtain rfl : a' = ⟨some after⟩ := congrArg Assembler.mk hafter
    exact ⟨ctx, marker, body ++ [⟨now, record⟩], h.refused refused⟩

/-- The batch open after a stream is what the stream has brought since its opening marker. -/
theorem gathers_feed (codec : Codec) (past : List Arrival) {batch : LedgerUpdate}
    (hopen : (feed codec past idle).1.batch = some batch) :
    ∃ ctx marker body, Gathers codec past ctx marker body batch := by
  induction past using List.reverseRecOn generalizing batch with
  | nil => simp [feed, idle] at hopen
  | append_singleton past arrival ih =>
    have heffect := process_effect codec arrival.ctx arrival.record (feed codec past idle).1
    rw [feed_append] at hopen
    exact gathers_of_effect heffect (fun _ h => ih h) batch hopen

/-- Every delivered update is the batch that was open before the marker that delivered it. -/
theorem exists_of_mem_feed (codec : Codec) (arrivals : List Arrival) (a : Assembler)
    {update : LedgerUpdate} (hmem : update ∈ (feed codec arrivals a).2) :
    ∃ past now closing rest, arrivals = past ++ ⟨now, .marker closing⟩ :: rest ∧
      closing.kind = .closing ∧ closes closing update ∧
      (feed codec past a).1.batch = some update := by
  induction arrivals generalizing a with
  | nil => simp [feed] at hmem
  | cons arrival arrivals ih =>
    rw [feed, List.mem_append] at hmem
    rcases hmem with hhere | hlater
    · have heffect := process_effect codec arrival.ctx arrival.record a
      have hresult : (a.process codec arrival.ctx arrival.record).2 = .ok (some update) := by
        cases h : (a.process codec arrival.ctx arrival.record).2 <;>
          simp_all [delivered?]
      obtain ⟨now, record⟩ := arrival
      rw [hresult] at heffect
      generalize (a.process codec now record).1 = a' at heffect
      cases heffect with
      | @delivers closing _ hclosing hcloses =>
        exact ⟨[], now, closing, arrivals, rfl, hclosing, hcloses, rfl⟩
    · obtain ⟨past, now, closing, rest, rfl, hclosing, hcloses, hopen⟩ := ih _ hlater
      exact ⟨arrival :: past, now, closing, rest, rfl, hclosing, hcloses, hopen⟩

/-- A batch that is open after a stream, or that the stream has delivered, is what the records since
its opening marker have brought. -/
theorem gathers_of_feed (codec : Codec) (arrivals : List Arrival) {batch : LedgerUpdate}
    (h : (feed codec arrivals idle).1.batch = some batch ∨ batch ∈ (feed codec arrivals idle).2) :
    ∃ past ctx marker body, past <+: arrivals ∧ Gathers codec past ctx marker body batch := by
  rcases h with hopen | hmem
  · obtain ⟨ctx, marker, body, hgathers⟩ := gathers_feed codec arrivals hopen
    exact ⟨arrivals, ctx, marker, body, List.prefix_rfl, hgathers⟩
  · obtain ⟨past, now, closing, rest, rfl, -, -, hopen⟩ :=
      exists_of_mem_feed codec arrivals idle hmem
    obtain ⟨ctx, marker, body, hgathers⟩ := gathers_feed codec past hopen
    exact ⟨past, ctx, marker, body, List.prefix_append .., hgathers⟩

end Assembler

end LedgerWatch
