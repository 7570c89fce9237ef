import LedgerWatch.Proofs.Ledger.Reassembly
import LedgerWatch.Proofs.Ledger.Verified

/-!
# Transactions and batches agree

The outputs of a transaction may arrive all at once, or one by one in a batch of the ledger stream.
Both ways lead to the same outputs under the same context, and if an output cannot be verified, both
end with the fault of the first such output.

## Main definitions

- `RawTransaction.outputs`: the outputs of a transaction, those consumed before those created
- `RawTransaction.asBatch`: the same outputs as a batch of the ledger stream
- `AssemblerRun.Answers`: a run comes to a given result

## Main results

- `verifyTransaction_eq_error_iff`: the fault of a transaction is that of its first bad output
- `Assembler.run_outputs`: a pass over outputs of one kind
- `Assembler.run_asBatch`: a batch comes to the result of the transaction
- `Assembler.run_asBatch_agrees`: the agreement in full
-/

namespace LedgerWatch

/-- Verifies an output as its state says, with its spend if it is spent. -/
def OutputState.verify (codec : Codec) (api : Parameters) (latest : CommitmentId)
    (state : OutputState) : Except Fault VerifiedOutput :=
  verifyOutput codec api state.output state.spend? latest

namespace RawTransaction

def outputs (raw : RawTransaction) : List OutputState :=
  raw.consumed.map .spent ++ raw.created.map .unspent

/-- The outputs between an opening marker, whatever counts it declares, and a closing marker with
their numbers. All of them arrive under one context. -/
def asBatch (ctx : BatchContext) (id : CommitmentId) (declared : UInt32 × UInt32)
    (raw : RawTransaction) : List Arrival :=
  ⟨ctx, .marker ⟨.opening, id, declared.1, declared.2⟩⟩ ::
    ((raw.consumed.map fun spent => ⟨ctx, .consumed spent⟩) ++
      ((raw.created.map fun output => ⟨ctx, .created output⟩) ++
        [⟨ctx, .marker ⟨.closing, id, .ofNat raw.consumed.length, .ofNat raw.created.length⟩⟩]))

end RawTransaction

/-- A transaction as the update of a commitment. -/
def AcceptedTransaction.asUpdate (id latest : CommitmentId) (tx : AcceptedTransaction) :
    LedgerUpdate where
  api := tx.api
  commitmentId := id
  latestCommitmentId := latest
  consumed := tx.consumed
  created := tx.created

/-- A run delivers the one update that is the result, or it ends with the fault before it delivers
anything. -/
def AssemblerRun.Answers (r : AssemblerRun) : Except Fault LedgerUpdate → Prop
  | .ok update => r.delivered = [update] ∧ r.fault = none
  | .error fault => r.delivered = [] ∧ r.fault = some fault

theorem AssemblerRun.Answers.after_none {r : AssemblerRun} {result : Except Fault LedgerUpdate}
    (h : r.Answers result) : (r.after none).Answers result := by
  cases result with
  | ok update => exact h
  | error fault => exact h

/-- A transaction fails with its context, or with the first of its outputs that cannot be
verified. -/
theorem verifyTransaction_eq_error_iff {codec : Codec} {ctx : BatchContext} {raw : RawTransaction}
    {fault : Fault} :
    verifyTransaction codec ctx raw = .error fault ↔
      ctx.apiForSlot raw.slot = .error fault ∨
        ∃ api, ctx.apiForSlot raw.slot = .ok api ∧
          ∃ before state after, raw.outputs = before ++ state :: after ∧
            (∀ earlier ∈ before, ∃ v, earlier.verify codec api ctx.latestCommitmentId = .ok v) ∧
            state.verify codec api ctx.latestCommitmentId = .error fault := by
  have houtputs : ∀ api, raw.outputs.mapM (OutputState.verify codec api ctx.latestCommitmentId) =
      (raw.consumed.mapM (verifySpent codec api ctx.latestCommitmentId) >>= fun consumed =>
        raw.created.mapM (verifyUnspent codec api ctx.latestCommitmentId) >>= fun created =>
          .ok (consumed ++ created)) := by
    intro api
    rw [RawTransaction.outputs, List.mapM_append, List.mapM_map, List.mapM_map]
    rfl
  simp only [← mapM_eq_error_iff, houtputs, verifyTransaction, bind_eq_error_iff]
  simp [pure, Except.pure]

theorem verifyTransaction_asUpdate {codec : Codec} {ctx : BatchContext} {raw : RawTransaction}
    {id latest : CommitmentId} {api : Parameters} (hapi : ctx.apiForSlot raw.slot = .ok api) :
    (verifyTransaction codec ctx raw).map (AcceptedTransaction.asUpdate id latest) =
      (raw.consumed.mapM (verifySpent codec api ctx.latestCommitmentId) >>= fun consumed =>
        raw.created.mapM (verifyUnspent codec api ctx.latestCommitmentId) >>= fun created =>
          .ok ⟨api, id, latest, consumed, created⟩) := by
  rw [verifyTransaction, hapi]
  cases hspent : raw.consumed.mapM (verifySpent codec api ctx.latestCommitmentId) with
  | error fault => simp [hspent, bind, Except.bind, Except.map]
  | ok consumed =>
    cases hunspent : raw.created.mapM (verifyUnspent codec api ctx.latestCommitmentId) with
    | error fault => simp [hspent, hunspent, bind, Except.bind, Except.map]
    | ok created =>
      simp [hspent, hunspent, bind, Except.bind, Except.map, pure, Except.pure,
        AcceptedTransaction.asUpdate]

namespace Assembler

variable {codec : Codec} {ctx : BatchContext}

/-- A pass over records of one kind gathers their outputs in an open batch, which is `fill` of those
gathered so far. What comes after it goes on from there. -/
theorem run_outputs {α : Type} {record : α → LedgerRecord}
    {verify : α → Except Fault VerifiedOutput} (fill : List VerifiedOutput → LedgerUpdate)
    (hprocess : ∀ gathered item, process codec ctx (record item) ⟨some (fill gathered)⟩ =
      match verify item with
      | .error fault => (⟨some (fill gathered)⟩, .error fault)
      | .ok output => (⟨some (fill (gathered ++ [output]))⟩, .ok none))
    {rest : List Arrival} {items : List α} {gathered : List VerifiedOutput}
    {next : List VerifiedOutput → Except Fault LedgerUpdate}
    (hrest : ∀ outputs, items.mapM verify = .ok outputs →
      (run codec rest ⟨some (fill (gathered ++ outputs))⟩).Answers (next outputs)) :
    (run codec ((items.map fun item => ⟨ctx, record item⟩) ++ rest)
      ⟨some (fill gathered)⟩).Answers (items.mapM verify >>= next) := by
  induction items generalizing gathered next with
  | nil => simpa using hrest [] rfl
  | cons item items ih =>
    simp only [List.map_cons, List.cons_append, run, hprocess, List.mapM_cons]
    cases hverify : verify item with
    | error fault => exact ⟨rfl, rfl⟩
    | ok output =>
      have hlater : (run codec ((items.map fun item => ⟨ctx, record item⟩) ++ rest)
          ⟨some (fill (gathered ++ [output]))⟩).Answers
            (items.mapM verify >>= fun outputs => next (output :: outputs)) := by
        apply ih
        intro outputs houtputs
        have hall : (item :: items).mapM verify = .ok (output :: outputs) := by
          rw [List.mapM_cons, hverify, houtputs]
          rfl
        simpa using hrest (output :: outputs) hall
      have hnext : (items.mapM verify >>= fun outputs => next (output :: outputs)) =
          ((Except.ok output >>= fun first => items.mapM verify >>= fun outputs =>
            pure (first :: outputs)) >>= next) := by
        cases items.mapM verify <;> rfl
      rw [← hnext]
      exact hlater.after_none

theorem run_closing {marker : BatchMarker} {batch : LedgerUpdate} (hclosing : marker.kind = .closing)
    (hcloses : closes marker batch) :
    (run codec [⟨ctx, .marker marker⟩] ⟨some batch⟩).Answers (.ok batch) := by
  simp [run, process, hclosing, closeBatch, hcloses, AssemblerRun.after, AssemblerRun.Answers]

/-- Whatever the transaction and its context are, the batch comes to the same update, or to the
same fault. -/
theorem run_asBatch {id : CommitmentId} {raw : RawTransaction} (declared : UInt32 × UInt32)
    (hapi : ctx.apiForSlot id.slot = ctx.apiForSlot raw.slot)
    (hconsumed : raw.consumed.length < UInt32.size) (hcreated : raw.created.length < UInt32.size) :
    (run codec (raw.asBatch ctx id declared) idle).Answers
      ((verifyTransaction codec ctx raw).map
        (AcceptedTransaction.asUpdate id ctx.latestCommitmentId)) := by
  cases hknown : ctx.apiForSlot raw.slot with
  | error fault =>
    rw [hknown] at hapi
    simp only [RawTransaction.asBatch, run, process, openBatch, idle, hapi, verifyTransaction,
      hknown]
    exact ⟨rfl, rfl⟩
  | ok api =>
    rw [hknown] at hapi
    rw [verifyTransaction_asUpdate hknown]
    simp only [RawTransaction.asBatch, run, process, openBatch, idle, hapi]
    apply AssemblerRun.Answers.after_none
    let update (consumed created : List VerifiedOutput) : LedgerUpdate :=
      ⟨api, id, ctx.latestCommitmentId, consumed, created⟩
    -- One pass for each kind, the second with the outputs that the first has left in the batch.
    refine run_outputs (fun consumed => update consumed []) (fun _ _ => rfl) ?_
    intro consumed hspent
    refine run_outputs (update consumed) (fun _ _ => rfl) ?_
    intro created hunspent
    apply run_closing rfl
    have hconsumedCount := (mapM_eq_ok_iff.mp hspent).length_eq
    have hcreatedCount := (mapM_eq_ok_iff.mp hunspent).length_eq
    refine (closes_iff _ _).mpr ⟨rfl, ?_, ?_⟩
    · exact hconsumedCount.symm.trans (UInt32.toNat_ofNat_of_lt hconsumed).symm
    · exact hcreatedCount.symm.trans (UInt32.toNat_ofNat_of_lt hcreated).symm

/-- A context that knows the same parameters for the slots of both leads a batch and a transaction
with the same outputs to one end. The batch is delivered exactly if the transaction is accepted, as
its update: with its parameters and its outputs, in their order. Otherwise both fail with the same
fault, which is that of the context, or else of the first output that cannot be verified, where
those consumed come before those created. -/
theorem run_asBatch_agrees (codec : Codec) (ctx : BatchContext) (id : CommitmentId)
    (declared : UInt32 × UInt32) (raw : RawTransaction)
    (hapi : ctx.apiForSlot id.slot = ctx.apiForSlot raw.slot)
    (hconsumed : raw.consumed.length < UInt32.size) (hcreated : raw.created.length < UInt32.size) :
    let r := run codec (raw.asBatch ctx id declared) idle
    let result := verifyTransaction codec ctx raw
    (r.delivered ≠ [] ↔ ∃ tx, result = .ok tx) ∧
    (∀ tx, result = .ok tx → r.delivered = [tx.asUpdate id ctx.latestCommitmentId]) ∧
    (∀ fault, r.fault = some fault ↔ result = .error fault) ∧
    ∀ fault, result = .error fault ↔
      ctx.apiForSlot raw.slot = .error fault ∨
        ∃ api, ctx.apiForSlot raw.slot = .ok api ∧
          ∃ before state after, raw.outputs = before ++ state :: after ∧
            (∀ earlier ∈ before, ∃ v, earlier.verify codec api ctx.latestCommitmentId = .ok v) ∧
            state.verify codec api ctx.latestCommitmentId = .error fault := by
  intro r result
  have hanswers : r.Answers (result.map (AcceptedTransaction.asUpdate id ctx.latestCommitmentId)) :=
    run_asBatch declared hapi hconsumed hcreated
  refine ⟨?_, ?_, ?_, fun fault => verifyTransaction_eq_error_iff⟩
  · cases hresult : result with
    | error fault =>
      rw [hresult] at hanswers
      simpa using hanswers.1
    | ok tx =>
      rw [hresult] at hanswers
      simp [hanswers.1]
  · intro tx hresult
    rw [hresult] at hanswers
    exact hanswers.1
  · intro fault
    cases hresult : result with
    | error found =>
      rw [hresult] at hanswers
      simp [hanswers.2]
    | ok tx =>
      rw [hresult] at hanswers
      simp [hanswers.2]

/-- Two good outputs make a transaction and a batch. With two bad ones among those created, the first
of them spoils both. -/
theorem run_asBatch_agrees_twoFeatures :
    let ctx := Connection.featuresOnly.cache.context
    let good : RawTransaction := { consumed := [{ output := twoFeatures }], created := [twoFeatures] }
    let bad : RawTransaction := { good with created := [{}, { twoFeatures with outputId := .empty }] }
    (∃ tx, verifyTransaction .featuresOnly ctx good = .ok tx ∧
      (run .featuresOnly (good.asBatch ctx ⟨Hash.zero, 3⟩ (0, 0)) idle).delivered =
        [tx.asUpdate ⟨Hash.zero, 3⟩ .empty] ∧ tx.consumed.length = 1 ∧ tx.created.length = 1) ∧
      (run .featuresOnly (bad.asBatch ctx .empty (7, 7)) idle).fault =
        some (.undecodable (.other "no features")) := by
  intro ctx good bad
  obtain ⟨-, hdelivered, -, -⟩ :=
    run_asBatch_agrees .featuresOnly ctx ⟨Hash.zero, 3⟩ (0, 0) good rfl (by decide) (by decide)
  obtain ⟨-, -, hfault, hfirst⟩ :=
    run_asBatch_agrees .featuresOnly ctx .empty (7, 7) bad rfl (by decide) (by decide)
  refine ⟨⟨_, rfl, hdelivered _ rfl, rfl, rfl⟩, ?_⟩
  rw [hfault, hfirst]
  refine .inr ⟨{}, rfl, [.spent { output := twoFeatures }], .unspent {}, _, rfl, ?_, rfl⟩
  intro earlier hearlier
  rw [List.mem_singleton.mp hearlier]
  exact ⟨_, rfl⟩

end Assembler

end LedgerWatch
