import LedgerWatch.Proofs.Ledger.Identity

/-!
# Honestly encoded outputs

Under the standard codec an output is accepted exactly if somebody encoded it: its bytes and the
bytes of its proof are encodings, and the proof gives the bytes the identifier claimed for them. The
check that the bytes are canonical never fails then, since a format reads only what it writes.

## Main definitions

- `RawOutput.Encodes`: what the two byte strings of an output encode
- `RawOutput.Honest`: the identifier is the right one besides
- `RawOutput.verified`: what such an output is handed out as

## Main results

- `verifyOutput_standard_eq`: verification without the check that cannot fail
- `RawOutput.Encodes.unique`: the byte strings encode one value and one proof at most
- `verifyOutput_standard_honest`: which outputs are accepted, and the fault of all the others
-/

namespace LedgerWatch

/-- The byte strings of an output are the encodings of a value and of a proof. Both fit, which means
that their lists are short enough to have an encoding. -/
structure RawOutput.Encodes (raw : RawOutput) (value : TransactionOutput) (proof : OutputProof) :
    Prop where
  value_fits : value.Fits
  value_bytes : Wire.output.encode value = raw.output
  proof_fits : proof.Fits
  proof_bytes : Wire.proof.encode proof = raw.proof

/-- An output is sent as its value and its proof encode it, under the identifier that the proof
derives. -/
structure RawOutput.Honest (raw : RawOutput) (value : TransactionOutput) (proof : OutputProof) :
    Prop extends raw.Encodes value proof where
  id : proof.outputId raw.output = raw.outputId

/-- The value and the proof of an output, with all that the node tells about it. -/
def RawOutput.verified (raw : RawOutput) (value : TransactionOutput) (proof : OutputProof)
    (spend : Option Spend) (latest : CommitmentId) : VerifiedOutput where
  id := raw.outputId
  value := value
  proof := proof
  metadata := ⟨raw.blockId, raw.slotBooked, raw.includedIn, spend, latest⟩
  raw := raw.output

variable {raw : RawOutput} {value value' : TransactionOutput} {proof proof' : OutputProof}

theorem RawOutput.Encodes.unique (h : raw.Encodes value proof) (h' : raw.Encodes value' proof') :
    value' = value ∧ proof' = proof := by
  have hvalue := h'.value_bytes.trans h.value_bytes.symm
  have hproof := h'.proof_bytes.trans h.proof_bytes.symm
  constructor
  · exact Wire.exact_output.encode_inj h'.value_fits h.value_fits hvalue
  · exact Wire.exact_proof.encode_inj h'.proof_fits h.proof_fits hproof

theorem RawOutput.encodes_iff :
    raw.Encodes value proof ↔
      Wire.output.decode raw.output = .ok value ∧ Wire.proof.decode raw.proof = .ok proof := by
  rw [Wire.exact_output.decode_eq_ok_iff, Wire.exact_proof.decode_eq_ok_iff]
  constructor
  · intro h
    exact ⟨⟨h.value_fits, h.value_bytes⟩, h.proof_fits, h.proof_bytes⟩
  · rintro ⟨⟨hvalue, hbytes⟩, hproof, hproofBytes⟩
    exact ⟨hvalue, hbytes, hproof, hproofBytes⟩

/-- Whatever decodes is canonical, so that two decodings and one comparison decide. -/
theorem verifyOutput_standard_eq (api : Parameters) (raw : RawOutput) (spend : Option Spend)
    (latest : CommitmentId) :
    verifyOutput .standard api raw spend latest =
      match Wire.output.decode raw.output, Wire.proof.decode raw.proof with
      | .error cause, _ => .error (.undecodable (.malformed .output cause))
      | .ok _, .error cause => .error (.undecodable (.malformed .proof cause))
      | .ok value, .ok proof =>
        if proof.outputId raw.output = raw.outputId then
          .ok (raw.verified value proof spend latest)
        else .error (.outputIdMismatch raw.outputId (proof.outputId raw.output)) := by
  have houtput : Codec.standard.decodeOutput raw.output api =
      (Wire.output.decode raw.output).mapError fun cause =>
        .undecodable (.malformed .output cause) := rfl
  have hproof : Codec.standard.decodeProof raw.proof api =
      (Wire.proof.decode raw.proof).mapError fun cause =>
        .undecodable (.malformed .proof cause) := rfl
  cases hvalue : Wire.output.decode raw.output with
  | error cause => simp [verifyOutput, houtput, hvalue, Except.mapError, bind, Except.bind]
  | ok value =>
    have hbytes : Wire.output.encode value = raw.output :=
      (Wire.exact_output.decode_eq_ok_iff.mp hvalue).2
    have hencode : Codec.standard.encodeOutput value api = .ok raw.output :=
      congrArg Except.ok hbytes
    have hderive : ∀ proof, Codec.standard.deriveOutputId proof value api =
        .ok (proof.outputId raw.output) := by
      intro proof
      rw [← hbytes]
      rfl
    cases hdecoded : Wire.proof.decode raw.proof with
    | error cause =>
      simp [verifyOutput, houtput, hvalue, hencode, hproof, hdecoded, Except.mapError, bind,
        Except.bind]
    | ok proof =>
      by_cases hid : proof.outputId raw.output = raw.outputId
      · simp [verifyOutput, houtput, hvalue, hencode, hproof, hdecoded, hderive, hid,
          RawOutput.verified, Except.mapError, bind, Except.bind, pure, Except.pure]
      · simp [verifyOutput, houtput, hvalue, hencode, hproof, hdecoded, hderive, hid,
          Except.mapError, bind, Except.bind, throw, throwThe, MonadExceptOf.throw]

theorem verifyOutput_of_honest (h : raw.Honest value proof) (api : Parameters)
    (spend : Option Spend) (latest : CommitmentId) :
    verifyOutput .standard api raw spend latest = .ok (raw.verified value proof spend latest) := by
  obtain ⟨hvalue, hproof⟩ := RawOutput.encodes_iff.mp h.toEncodes
  simp only [verifyOutput_standard_eq, hvalue, hproof, h.id, if_true]

theorem honest_of_verifyOutput {api : Parameters} {spend : Option Spend} {latest : CommitmentId}
    {v : VerifiedOutput} (h : verifyOutput .standard api raw spend latest = .ok v) :
    raw.Honest v.value v.proof := by
  obtain ⟨⟨hvalue, hbytes⟩, ⟨hproof, hproofBytes⟩, hid, -⟩ :=
    verifyOutput_standard_eq_ok_iff.mp h
  exact ⟨⟨hvalue, hbytes, hproof, hproofBytes⟩, hid⟩

/-- For any message, an output is accepted exactly if it is honest, and then it has one value and
one proof, with which it is handed out. Where both byte strings decode, only the identifier can be
wrong, and both identifiers are told. Otherwise the output's own bytes are to blame before those of
its proof. The bytes are never called not canonical. -/
theorem verifyOutput_standard_honest (api : Parameters) (raw : RawOutput) (spend : Option Spend)
    (latest : CommitmentId) :
    let result := verifyOutput .standard api raw spend latest
    ((∃ v, result = .ok v) ↔ ∃ value proof, raw.Honest value proof) ∧
    (∀ value proof, raw.Honest value proof →
      result = .ok (raw.verified value proof spend latest) ∧
      ∀ value' proof', raw.Honest value' proof' → value' = value ∧ proof' = proof) ∧
    (∀ value proof, Wire.output.decode raw.output = .ok value →
      Wire.proof.decode raw.proof = .ok proof → proof.outputId raw.output ≠ raw.outputId →
      result = .error (.outputIdMismatch raw.outputId (proof.outputId raw.output))) ∧
    (∀ cause, Wire.output.decode raw.output = .error cause →
      result = .error (.undecodable (.malformed .output cause))) ∧
    (∀ value cause, Wire.output.decode raw.output = .ok value →
      Wire.proof.decode raw.proof = .error cause →
      result = .error (.undecodable (.malformed .proof cause))) ∧
    result ≠ .error (.undecodable .outputNotCanonical) := by
  intro result
  refine ⟨⟨?_, ?_⟩, ?_, ?_, ?_, ?_, ?_⟩
  · rintro ⟨v, hv⟩
    exact ⟨v.value, v.proof, honest_of_verifyOutput hv⟩
  · rintro ⟨value, proof, hhonest⟩
    exact ⟨_, verifyOutput_of_honest hhonest api spend latest⟩
  · intro value proof hhonest
    refine ⟨verifyOutput_of_honest hhonest api spend latest, ?_⟩
    intro value' proof' hhonest'
    exact hhonest.toEncodes.unique hhonest'.toEncodes
  · intro value proof hvalue hproof hid
    simp only [result, verifyOutput_standard_eq, hvalue, hproof, hid, if_false]
  · intro cause hvalue
    simp only [result, verifyOutput_standard_eq, hvalue]
  · intro value cause hvalue hproof
    simp only [result, verifyOutput_standard_eq, hvalue, hproof]
  · intro hresult
    simp only [result, verifyOutput_standard_eq] at hresult
    split at hresult
    · cases hresult
    · cases hresult
    · split at hresult <;> cases hresult

/-- The first of two outputs is accepted as it is, and under another identifier it is refused. -/
theorem verifyOutput_standard_honest_firstOfTwo :
    let raw := firstProof.certify firstOfTwo
    verifyOutput .standard {} raw none .empty =
        .ok (raw.verified firstOfTwo firstProof none .empty) ∧
      verifyOutput .standard {} { raw with outputId := .empty } none .empty =
        .error (.outputIdMismatch .empty raw.outputId) := by
  intro raw
  have hencodes : raw.Encodes firstOfTwo firstProof := ⟨by decide, rfl, by decide, rfl⟩
  obtain ⟨-, haccepted, -⟩ := verifyOutput_standard_honest {} raw none .empty
  obtain ⟨-, -, hrefused, -⟩ :=
    verifyOutput_standard_honest {} { raw with outputId := .empty } none .empty
  obtain ⟨hvalue, hproof⟩ := RawOutput.encodes_iff.mp hencodes
  have hslot : (8 : Slot) ≠ 0 := by decide
  have hother : firstProof.outputId raw.output ≠ .empty := by
    intro h
    exact hslot (congrArg (fun id => id.transaction.slot) h)
  exact ⟨(haccepted firstOfTwo firstProof ⟨hencodes, rfl⟩).1,
    hrefused firstOfTwo firstProof hvalue hproof hother⟩

end LedgerWatch
