import LedgerWatch.Ledger.Output
import LedgerWatch.Proofs.Codec

/-!
# What verification vouches for

An output is verified exactly if it passes all checks, whatever codec they are made with. Under the
standard codec the checks come down to two encodings and one identifier.

## Main definitions

- `Codec.Raises`: the faults that a codec itself gives for an output
- `VerifiedOutput.Genuine`: the equations between an output, its bytes, its proof and its identifier
- `VerifiedOutput.Reports`: an output repeats what the node sent and what was known then

## Main results

- `verifyOutput_eq_ok_iff`: the outputs that verification hands out
- `verifyOutput_eq_error`: where the fault of any other output comes from
- `verifyOutput_standard_eq_ok_iff`: those that it hands out under the standard codec
-/

namespace LedgerWatch

/-- The codec answers one of the questions about an output with this fault. -/
inductive Codec.Raises (codec : Codec) (fault : Fault) : Prop
  | decodeOutput {data api} (h : codec.decodeOutput data api = .error fault)
  | encodeOutput {output api} (h : codec.encodeOutput output api = .error fault)
  | decodeProof {data api} (h : codec.decodeProof data api = .error fault)
  | deriveOutputId {proof output api} (h : codec.deriveOutputId proof output api = .error fault)

/-- The bytes are the encoding of the value and decode to it, and the proof derives the identifier
from the value, all under the parameters `api`. -/
structure VerifiedOutput.Genuine (codec : Codec) (api : Parameters) (v : VerifiedOutput) :
    Prop where
  decoded : codec.decodeOutput v.raw api = .ok v.value
  encoded : codec.encodeOutput v.value api = .ok v.raw
  derived : codec.deriveOutputId v.proof v.value api = .ok v.id

/-- The identifier, the bytes and the metadata are those that the node sent, with the given spend
and latest commitment. -/
structure VerifiedOutput.Reports (v : VerifiedOutput) (raw : RawOutput) (spend : Option Spend)
    (latest : CommitmentId) : Prop where
  id : v.id = raw.outputId
  bytes : v.raw = raw.output
  metadata : v.metadata = ⟨raw.blockId, raw.slotBooked, raw.includedIn, spend, latest⟩

variable {codec : Codec} {api : Parameters} {raw : RawOutput} {spend : Option Spend}
  {latest : CommitmentId} {v : VerifiedOutput}

theorem VerifiedOutput.Reports.isSpent (h : v.Reports raw spend latest) :
    v.metadata.isSpent = spend.isSome := by
  rw [OutputMetadata.isSpent, h.metadata]

/-- Verification hands out the genuine outputs that repeat what the node sent, with the proof that
it sent. -/
theorem verifyOutput_eq_ok_iff :
    verifyOutput codec api raw spend latest = .ok v ↔
      v.Genuine codec api ∧ v.Reports raw spend latest ∧
        codec.decodeProof raw.proof api = .ok v.proof := by
  simp only [verifyOutput, bind_eq_ok_iff, throw_bind_eq_ok_iff, not_not, ne_eq]
  constructor
  · rintro ⟨value, hdecoded, encoded, hencoded, rfl, proof, hproof, derived, hderived, rfl, hv⟩
    obtain rfl := Except.ok.inj hv
    exact ⟨⟨hdecoded, hencoded, hderived⟩, ⟨rfl, rfl, rfl⟩, hproof⟩
  · rintro ⟨⟨hdecoded, hencoded, hderived⟩, ⟨hid, hbytes, hmetadata⟩, hproof⟩
    rw [hbytes] at hdecoded hencoded
    rw [hid] at hderived
    refine ⟨v.value, hdecoded, raw.output, hencoded, rfl, v.proof, hproof, raw.outputId, hderived,
      rfl, ?_⟩
    rw [← hid, ← hbytes, ← hmetadata]
    rfl

/-- An output is refused by the codec, for its bytes or for its identifier. -/
theorem verifyOutput_eq_error {fault : Fault}
    (h : verifyOutput codec api raw spend latest = .error fault) :
    codec.Raises fault ∨ fault = .undecodable .outputNotCanonical ∨
      ∃ derived, fault = .outputIdMismatch raw.outputId derived := by
  simp only [verifyOutput, bind_eq_error_iff, throw_bind_eq_error_iff] at h
  rcases h with hdecode | ⟨value, -, hencode | ⟨encoded, -, ⟨-, hbytes⟩ | ⟨-, h⟩⟩⟩
  · exact .inl (.decodeOutput hdecode)
  · exact .inl (.encodeOutput hencode)
  · exact .inr (.inl hbytes.symm)
  · rcases h with hproof | ⟨proof, -, hderive | ⟨derived, -, ⟨-, hid⟩ | ⟨-, hpure⟩⟩⟩
    · exact .inl (.decodeProof hproof)
    · exact .inl (.deriveOutputId hderive)
    · exact .inr (.inr ⟨derived, hid.symm⟩)
    · cases hpure

/-- Under the standard codec the bytes are the encodings of the output and of its proof, and the
identifier is the one that the proof gives to the bytes. -/
theorem verifyOutput_standard_eq_ok_iff :
    verifyOutput .standard api raw spend latest = .ok v ↔
      (v.value.Fits ∧ Wire.output.encode v.value = raw.output) ∧
      (v.proof.Fits ∧ Wire.proof.encode v.proof = raw.proof) ∧
      v.proof.outputId raw.output = raw.outputId ∧ v.Reports raw spend latest := by
  rw [verifyOutput_eq_ok_iff, Codec.standard_decodeProof_eq_ok_iff]
  constructor
  · rintro ⟨⟨hdecoded, -, hderived⟩, hreports, hproof⟩
    have hencoded := Codec.standard_decodeOutput_eq_ok_iff.mp hdecoded
    have hid : v.proof.outputId (Wire.output.encode v.value) = v.id := Except.ok.inj hderived
    rw [hencoded.2, hreports.bytes, hreports.id] at hid
    rw [hreports.bytes] at hencoded
    exact ⟨hencoded, hproof, hid, hreports⟩
  · rintro ⟨hencoded, hproof, hid, hreports⟩
    rw [← hreports.bytes] at hencoded hid
    refine ⟨⟨Codec.standard_decodeOutput_eq_ok_iff.mpr hencoded, congrArg Except.ok hencoded.2, ?_⟩,
      hreports, hproof⟩
    have hderived : v.proof.outputId (Wire.output.encode v.value) = v.id := by
      rw [hencoded.2, hid, hreports.id]
    exact congrArg Except.ok hderived

end LedgerWatch
