import LedgerWatch.Connection
import LedgerWatch.Proofs.Ledger.Continued
import LedgerWatch.Proofs.Ledger.Output

/-!
# Every output handed out is verified

Outputs leave the library in three ways: in the batches of the ledger stream, in accepted
transactions, and as the answer to a lookup. Whatever the codec and the node do, each of them is
genuine under the parameters it was decoded with, carries the commitment known at its time, and is
marked as spent exactly if the node sent it as spent.

## Main results

- `verifyTransaction_eq_ok_iff`: the outputs of a transaction, one for each that the node sent
- `Connection.checkOutput_eq_ok_iff`: the output that answers a lookup
- `Connection.outputs_verified`: all three ways, for every codec
-/

namespace LedgerWatch

variable {codec : Codec} {api : Parameters} {latest : CommitmentId} {v : VerifiedOutput}

theorem verifySpent_genuine {spent : RawSpent} (h : verifySpent codec api latest spent = .ok v) :
    v.Genuine codec api ∧ v.Reports spent.output (some spent.spend) latest :=
  have hok := verifyOutput_eq_ok_iff.mp h
  ⟨hok.1, hok.2.1⟩

theorem verifyUnspent_genuine {raw : RawOutput} (h : verifyUnspent codec api latest raw = .ok v) :
    v.Genuine codec api ∧ v.Reports raw none latest :=
  have hok := verifyOutput_eq_ok_iff.mp h
  ⟨hok.1, hok.2.1⟩

/-- A transaction is handed out with the outputs that verification gives for those of the node, in
their order. -/
theorem verifyTransaction_eq_ok_iff {ctx : BatchContext} {raw : RawTransaction}
    {tx : AcceptedTransaction} :
    verifyTransaction codec ctx raw = .ok tx ↔
      ctx.apiForSlot raw.slot = .ok tx.api ∧ tx.slot = raw.slot ∧
      tx.transactionId = raw.transactionId ∧
      List.Forall₂ (fun spent v => verifySpent codec tx.api ctx.latestCommitmentId spent = .ok v)
        raw.consumed tx.consumed ∧
      List.Forall₂ (fun raw v => verifyUnspent codec tx.api ctx.latestCommitmentId raw = .ok v)
        raw.created tx.created := by
  simp only [verifyTransaction, bind_eq_ok_iff, mapM_eq_ok_iff]
  constructor
  · rintro ⟨api, hapi, consumed, hconsumed, created, hcreated, htx⟩
    obtain rfl := Except.ok.inj htx
    exact ⟨hapi, rfl, rfl, hconsumed, hcreated⟩
  · obtain ⟨api, slot, transactionId, consumed, created⟩ := tx
    rintro ⟨hapi, rfl, rfl, hconsumed, hcreated⟩
    exact ⟨api, hapi, consumed, hconsumed, created, hcreated, rfl⟩

/-- A lookup is answered by the output asked for, verified under the parameters for its slot. -/
theorem Connection.checkOutput_eq_ok_iff {c : Connection} {id : OutputId} {report : OutputReport} :
    c.checkOutput id report = .ok v ↔
      v.id = id ∧ ∃ api, c.cache.apiForSlot id.slot = .ok api ∧
        verifyOutput c.codec api report.state.output report.state.spend?
          report.latestCommitmentId = .ok v := by
  simp only [checkOutput, bind_eq_ok_iff, throw_bind_eq_ok_iff, not_not, ne_eq]
  constructor
  · rintro ⟨api, hapi, output, hverify, hid, hv⟩
    obtain rfl := Except.ok.inj hv
    exact ⟨hid, api, hapi, hverify⟩
  · rintro ⟨hid, api, hapi, hverify⟩
    exact ⟨api, hapi, v, hverify, hid, rfl⟩

namespace Assembler

variable {past body : List Arrival} {ctx : BatchContext} {marker : BatchMarker}
  {batch : LedgerUpdate}

/-- An output that was verified stems from one of the records. -/
theorem exists_sent_of_mem {α : Type} {sent? : Arrival → Option α}
    {verify : α → Except Fault VerifiedOutput}
    (hv : v ∈ (body.filterMap sent?).filterMap fun sent => (verify sent).toOption) :
    ∃ a ∈ body, ∃ sent, sent? a = some sent ∧ verify sent = .ok v := by
  obtain ⟨sent, hsent, hverify⟩ := List.mem_filterMap.mp hv
  obtain ⟨a, ha, hrecord⟩ := List.mem_filterMap.mp hsent
  exact ⟨a, ha, sent, hrecord, toOption_eq_some_iff.mp hverify⟩

theorem record_of_spent? {a : Arrival} {spent : RawSpent} (h : a.spent? = some spent) :
    a.record = .consumed spent := by
  unfold Arrival.spent? at h
  split at h <;> simp_all

theorem record_of_created? {a : Arrival} {raw : RawOutput} (h : a.created? = some raw) :
    a.record = .created raw := by
  unfold Arrival.created? at h
  split at h <;> simp_all

theorem Gathers.consumed_genuine (h : Gathers codec past ctx marker body batch)
    (hv : v ∈ batch.consumed) :
    v.Genuine codec batch.api ∧ ∃ a ∈ body, ∃ spent, a.record = .consumed spent ∧
      v.Reports spent.output (some spent.spend) ctx.latestCommitmentId := by
  rw [h.consumed] at hv
  obtain ⟨a, ha, spent, hspent, hverify⟩ := exists_sent_of_mem hv
  obtain ⟨hgenuine, hreports⟩ := verifySpent_genuine hverify
  rw [h.latestCommitmentId] at hreports
  exact ⟨hgenuine, a, ha, spent, record_of_spent? hspent, hreports⟩

theorem Gathers.created_genuine (h : Gathers codec past ctx marker body batch)
    (hv : v ∈ batch.created) :
    v.Genuine codec batch.api ∧ ∃ a ∈ body, ∃ raw, a.record = .created raw ∧
      v.Reports raw none ctx.latestCommitmentId := by
  rw [h.created] at hv
  obtain ⟨a, ha, raw, hraw, hverify⟩ := exists_sent_of_mem hv
  obtain ⟨hgenuine, hreports⟩ := verifyUnspent_genuine hverify
  rw [h.latestCommitmentId] at hreports
  exact ⟨hgenuine, a, ha, raw, record_of_created? hraw, hreports⟩

end Assembler

/-- Whatever the codec of a connection does, every output that it hands out is genuine.

In a batch of the ledger stream, open or delivered, an output carries the commitment that was the
latest when the batch opened; it is marked as spent, with the spend of its record, exactly if it is
among the consumed ones. Records that failed on the way make no difference. In a transaction the
outputs correspond one to one to those sent, under the context of the transaction. A lookup is
answered by the output asked for, marked as spent exactly if its state is. -/
theorem Connection.outputs_verified (c : Connection) :
    (∀ arrivals batch,
      (Assembler.feed c.codec arrivals .idle).1.batch = some batch ∨
        batch ∈ (Assembler.feed c.codec arrivals .idle).2 →
      ∃ past ctx marker body, past <+: arrivals ∧
        Assembler.Gathers c.codec past ctx marker body batch ∧
        (∀ v ∈ batch.consumed, v.Genuine c.codec batch.api ∧ v.metadata.isSpent ∧
          ∃ a ∈ body, ∃ spent, a.record = .consumed spent ∧
            v.Reports spent.output (some spent.spend) ctx.latestCommitmentId) ∧
        ∀ v ∈ batch.created, v.Genuine c.codec batch.api ∧ ¬ v.metadata.isSpent ∧
          ∃ a ∈ body, ∃ raw, a.record = .created raw ∧
            v.Reports raw none ctx.latestCommitmentId) ∧
    (∀ ctx raw tx, verifyTransaction c.codec ctx raw = .ok tx →
      ctx.apiForSlot raw.slot = .ok tx.api ∧
      List.Forall₂ (fun spent v => v.Genuine c.codec tx.api ∧ v.metadata.isSpent ∧
          v.Reports spent.output (some spent.spend) ctx.latestCommitmentId)
        raw.consumed tx.consumed ∧
      List.Forall₂ (fun raw v => v.Genuine c.codec tx.api ∧ ¬ v.metadata.isSpent ∧
          v.Reports raw none ctx.latestCommitmentId)
        raw.created tx.created) ∧
    (∀ id report v, c.checkOutput id report = .ok v →
      v.id = id ∧ (v.metadata.isSpent ↔ ∃ spent, report.state = .spent spent) ∧
      v.Reports report.state.output report.state.spend? report.latestCommitmentId ∧
      ∃ api, c.cache.apiForSlot id.slot = .ok api ∧ v.Genuine c.codec api) ∧
    ∀ id node v, c.output id node = .ok v →
      ∃ report, node.readOutput id = .ok report ∧ c.checkOutput id report = .ok v := by
  refine ⟨fun arrivals batch hbatch => ?_, fun ctx raw tx htx => ?_, fun id report v hv => ?_,
    fun id node v hv => ?_⟩
  · obtain ⟨past, ctx, marker, body, hprefix, h⟩ :=
      Assembler.gathers_of_feed c.codec arrivals hbatch
    refine ⟨past, ctx, marker, body, hprefix, h, fun v hv => ?_, fun v hv => ?_⟩
    · obtain ⟨hgenuine, a, ha, spent, hrecord, hreports⟩ := h.consumed_genuine hv
      exact ⟨hgenuine, by simp [hreports.isSpent], a, ha, spent, hrecord, hreports⟩
    · obtain ⟨hgenuine, a, ha, raw, hrecord, hreports⟩ := h.created_genuine hv
      exact ⟨hgenuine, by simp [hreports.isSpent], a, ha, raw, hrecord, hreports⟩
  · obtain ⟨hapi, -, -, hconsumed, hcreated⟩ := verifyTransaction_eq_ok_iff.mp htx
    refine ⟨hapi, hconsumed.imp fun spent v hverify => ?_, hcreated.imp fun raw v hverify => ?_⟩
    · obtain ⟨hgenuine, hreports⟩ := verifySpent_genuine hverify
      exact ⟨hgenuine, by simp [hreports.isSpent], hreports⟩
    · obtain ⟨hgenuine, hreports⟩ := verifyUnspent_genuine hverify
      exact ⟨hgenuine, by simp [hreports.isSpent], hreports⟩
  · obtain ⟨hid, api, hapi, hverify⟩ := checkOutput_eq_ok_iff.mp hv
    obtain ⟨hgenuine, hreports, -⟩ := verifyOutput_eq_ok_iff.mp hverify
    refine ⟨hid, ?_, hreports, api, hapi, hgenuine⟩
    rw [hreports.isSpent]
    cases hstate : report.state <;> simp [OutputState.spend?]
  · obtain ⟨report, hreport, hcheck⟩ := bind_eq_ok_iff.mp hv
    refine ⟨report, ?_, hcheck⟩
    cases hanswer : node.readOutput id with
    | error status => simp [answered, hanswer, Except.mapError] at hreport
    | ok found => simpa [answered, hanswer, Except.mapError] using hreport

/-- The standard codec with an output written as its features, and named by their number. -/
def Codec.featuresOnly : Codec :=
  { standard with
    decodeOutput := fun data _ =>
      if data = [] then .error (.undecodable (.other "no features")) else .ok { features := data }
    encodeOutput := fun output _ => .ok output.features
    decodeProof := fun _ _ => .ok ⟨0, Hash.zero, 0, []⟩
    deriveOutputId := fun _ output _ => .ok ⟨.empty, UInt16.ofNat output.features.length⟩ }

/-- A connection to a node that is up and has no commitment yet. -/
def Connection.featuresOnly : Connection :=
  ⟨{}, .featuresOnly, { status := some ⟨true, none, none, 0, {}⟩ }⟩

def twoFeatures : RawOutput := { outputId := ⟨.empty, 2⟩, output := [5, 6] }

/-- A batch in the middle of which an output fails to decode and a second batch is opened. -/
def interruptedBatch : List Arrival :=
  [.marker { kind := .opening }, .consumed { output := twoFeatures }, .created {},
    .marker { kind := .opening }, .created twoFeatures,
    .marker { kind := .closing, consumedCount := 1, createdCount := 1 }].map
      (Arrival.mk Connection.featuresOnly.cache.context)

/-- The outputs on both sides of the interruption are delivered, and come through a transaction and
a lookup as well. -/
theorem Connection.outputs_verified_interruptedBatch :
    (∃ batch spent created, (Assembler.feed .featuresOnly interruptedBatch .idle).2 = [batch] ∧
      batch.consumed = [spent] ∧ batch.created = [created] ∧
      (spent.Genuine .featuresOnly batch.api ∧ spent.metadata.isSpent) ∧
      created.Genuine .featuresOnly batch.api ∧ ¬ created.metadata.isSpent) ∧
    (∃ tx spent, verifyTransaction .featuresOnly featuresOnly.cache.context
        { consumed := [{ output := twoFeatures }] } = .ok tx ∧
      tx.consumed = [spent] ∧ spent.Genuine .featuresOnly tx.api ∧ spent.metadata.isSpent) ∧
    ∃ v, featuresOnly.output ⟨.empty, 2⟩
        { outputs := [(⟨.empty, 2⟩, ⟨.empty, .unspent twoFeatures⟩)] } = .ok v ∧
      v.id = ⟨.empty, 2⟩ := by
  obtain ⟨hbatches, htransactions, hreports, hlookups⟩ := outputs_verified featuresOnly
  refine ⟨?_, ?_, ?_⟩
  · obtain ⟨batch, spent, created, hdelivered, hspent, hcreated⟩ :
        ∃ batch spent created, (Assembler.feed .featuresOnly interruptedBatch .idle).2 = [batch] ∧
          batch.consumed = [spent] ∧ batch.created = [created] := ⟨_, _, _, rfl, rfl, rfl⟩
    have hmem : batch ∈ (Assembler.feed .featuresOnly interruptedBatch .idle).2 := by
      simp [hdelivered]
    obtain ⟨_, _, _, _, -, -, hallSpent, hallCreated⟩ := hbatches interruptedBatch batch (.inr hmem)
    obtain ⟨hspentGenuine, hisSpent, -⟩ := hallSpent spent (by simp [hspent])
    obtain ⟨hcreatedGenuine, hisUnspent, -⟩ := hallCreated created (by simp [hcreated])
    exact ⟨batch, spent, created, hdelivered, hspent, hcreated, ⟨hspentGenuine, hisSpent⟩,
      hcreatedGenuine, hisUnspent⟩
  · obtain ⟨tx, spent, htx, hspent⟩ :
        ∃ tx spent, verifyTransaction .featuresOnly featuresOnly.cache.context
          { consumed := [{ output := twoFeatures }] } = .ok tx ∧ tx.consumed = [spent] :=
      ⟨_, _, rfl, rfl⟩
    obtain ⟨-, hconsumed, -⟩ := htransactions _ _ tx htx
    rw [hspent] at hconsumed
    obtain ⟨hgenuine, hisSpent, -⟩ := (List.forall₂_cons.mp hconsumed).1
    exact ⟨tx, spent, htx, hspent, hgenuine, hisSpent⟩
  · obtain ⟨v, hv⟩ : ∃ v, featuresOnly.output ⟨.empty, 2⟩
        { outputs := [(⟨.empty, 2⟩, ⟨.empty, .unspent twoFeatures⟩)] } = .ok v := ⟨_, rfl⟩
    obtain ⟨report, -, hcheck⟩ := hlookups _ _ v hv
    exact ⟨v, hv, (hreports _ report v hcheck).1⟩

end LedgerWatch
