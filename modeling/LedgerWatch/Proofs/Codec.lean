import LedgerWatch.Codec
import LedgerWatch.Proofs.Wire.Exact
import Mathlib.Data.Set.Operations

/-!
# The standard codec is exact

A payload decodes to a value exactly if it is the encoding of that value, for each kind of object.
So decoding undoes encoding, a payload that is accepted is the only one for its value, and a
commitment is held back only by the version that it must belong to.

## Main definitions

- `Parameters.Fits`, `TransactionOutput.Fits`, `OutputProof.Fits`, `Block.Fits`: the lengths inside
  are such that eight bytes can hold them, so the value has an encoding of its own

## Main results

- `Wire.exact_parameters`, `Wire.exact_commitment`, `Wire.exact_output`, `Wire.exact_proof`,
  `Wire.exact_block`: the formats of the objects are exact
- `Codec.standard_decodes_exactly`: so is the codec
-/

namespace LedgerWatch

open Wire (FitsLength)

def Parameters.Fits (p : Parameters) : Prop :=
  FitsLength (Utf8.encode p.networkName).length ∧ FitsLength (Utf8.encode p.bech32Hrp).length

def TransactionOutput.Fits (o : TransactionOutput) : Prop := FitsLength o.features.length

def OutputProof.Fits (p : OutputProof) : Prop := FitsLength p.path.length

instance (p : Parameters) : Decidable p.Fits :=
  inferInstanceAs (Decidable ((Utf8.encode p.networkName).length < UInt64.size ∧
    (Utf8.encode p.bech32Hrp).length < UInt64.size))

instance (o : TransactionOutput) : Decidable o.Fits :=
  inferInstanceAs (Decidable (o.features.length < UInt64.size))

instance (p : OutputProof) : Decidable p.Fits :=
  inferInstanceAs (Decidable (p.path.length < UInt64.size))

structure Block.Fits (b : Block) : Prop where
  strongParents : FitsLength b.strongParents.length
  weakParents : FitsLength b.weakParents.length
  shallowLikeParents : FitsLength b.shallowLikeParents.length
  payload : FitsLength b.payload.length

namespace Wire

open Format

theorem exact_parameters : parameters.Exact Parameters.Fits := by
  have hfields := exact_uint8.pair <| exact_text.pair <| exact_text.pair <| exact_uint8.pair <|
    exact_uint32.pair exact_uint64
  refine (hfields.via (fun _ => rfl) (fun _ => rfl)).of_iff fun p => ?_
  simp [Parameters.Fits]

theorem exact_commitment : commitment.Exact fun _ => True := by
  have hfields := exact_uint8.pair <| exact_uint32.pair <| (exact_slotId .commitment).pair <|
    exact_hash.pair <| exact_uint64.pair exact_uint64
  refine (hfields.via (fun _ => rfl) (fun _ => rfl)).of_iff fun c => ?_
  simp

theorem exact_output : output.Exact TransactionOutput.Fits := by
  have hfields := exact_uint64.pair <| exact_uint64.pair <| exact_hash.pair <|
    exact_uint8.list
  refine (hfields.via (fun _ => rfl) (fun _ => rfl)).of_iff fun o => ?_
  simp [TransactionOutput.Fits]

/-- The tags 0 and 1 are read as the sides that they are written for, and no others are read. -/
theorem exact_side : side.Exact fun _ => True where
  read_eq_ok_iff {data a rest} := by
    simp only [side, bind_eq_ok_iff, true_and]
    constructor
    · rintro ⟨⟨tag, left⟩, htag, hresult⟩
      obtain ⟨-, rfl⟩ := exact_uint32.read_eq_ok_iff.mp htag
      dsimp only at hresult
      split at hresult
      · next hleft =>
        obtain ⟨rfl, rfl⟩ := Prod.mk.inj (Except.ok.inj hresult)
        rw [hleft]
      · split at hresult
        · next hright =>
          obtain ⟨rfl, rfl⟩ := Prod.mk.inj (Except.ok.inj hresult)
          rw [hright]
        · cases hresult
    · rintro rfl
      cases a with
      | left => exact ⟨(0, rest), exact_uint32.read_eq_ok_iff.mpr ⟨trivial, rfl⟩, rfl⟩
      | right => exact ⟨(1, rest), exact_uint32.read_eq_ok_iff.mpr ⟨trivial, rfl⟩, rfl⟩

theorem exact_step : step.Exact fun _ => True :=
  ((exact_hash.pair exact_side).via (fun _ => rfl) (fun _ => rfl)).of_iff (by simp)

theorem exact_proof : proof.Exact OutputProof.Fits := by
  have hfields := exact_uint32.pair <| exact_hash.pair <| exact_uint16.pair <| exact_step.list
  refine (hfields.via (fun _ => rfl) (fun _ => rfl)).of_iff fun p => ?_
  simp [OutputProof.Fits]

theorem exact_block : block.Exact Block.Fits := by
  have hparents := (exact_slotId .block).list
  have hfields := exact_uint8.pair <| exact_uint64.pair <| exact_uint64.pair <|
    (exact_slotId .commitment).pair <| exact_uint32.pair <| hparents.pair <| hparents.pair <|
    hparents.pair <| exact_uint8.list.pair exact_uint64
  refine (hfields.via (fun _ => rfl) (fun _ => rfl)).of_iff fun b => ?_
  simp only [implies_true, true_and, and_true]
  exact ⟨fun h => ⟨h.strongParents, h.weakParents, h.shallowLikeParents, h.payload⟩,
    fun ⟨strong, weak, shallow, payload⟩ => ⟨strong, weak, shallow, payload⟩⟩

end Wire

namespace Codec

theorem decodeAs_eq_ok_iff {α : Type} {kind : Wire.ObjectKind} {format : Wire.Format α}
    {fits : α → Prop} (h : format.Exact fits) {data : Bytes} {a : α} :
    decodeAs kind format data = .ok a ↔ fits a ∧ format.encode a = data := by
  rw [← h.decode_eq_ok_iff, decodeAs]
  cases format.decode data <;> simp [Except.mapError]

theorem decodeCommitmentOf_eq_ok_iff {data : Bytes} {api : Parameters} {c : SlotCommitment} :
    decodeCommitmentOf data api = .ok c ↔
      Wire.commitment.encode c = data ∧ c.protocolVersion = api.version := by
  simp only [decodeCommitmentOf, bind_eq_ok_iff, decodeAs_eq_ok_iff Wire.exact_commitment, true_and]
  constructor
  · rintro ⟨decoded, hdata, hversion⟩
    split at hversion
    · next heq =>
      obtain rfl := Except.ok.inj hversion
      exact ⟨hdata, heq⟩
    · cases hversion
  · rintro ⟨hdata, hversion⟩
    exact ⟨c, hdata, if_pos hversion⟩

theorem standard_decodeParameters_eq_ok_iff {data : Bytes} {p : Parameters} :
    standard.decodeParameters data = .ok p ↔ p.Fits ∧ Wire.parameters.encode p = data :=
  decodeAs_eq_ok_iff Wire.exact_parameters

theorem standard_decodeOutput_eq_ok_iff {data : Bytes} {api : Parameters} {o : TransactionOutput} :
    standard.decodeOutput data api = .ok o ↔ o.Fits ∧ Wire.output.encode o = data :=
  decodeAs_eq_ok_iff Wire.exact_output

theorem standard_decodeProof_eq_ok_iff {data : Bytes} {api : Parameters} {p : OutputProof} :
    standard.decodeProof data api = .ok p ↔ p.Fits ∧ Wire.proof.encode p = data :=
  decodeAs_eq_ok_iff Wire.exact_proof

/-- For each kind of object, a payload decodes to a value exactly if the value fits and the payload
is its encoding; a commitment must belong to the version in effect besides. Values that fit are
told apart by their encodings. -/
theorem standard_decodes_exactly (api : Parameters) (data : Bytes) :
    ((∀ p, standard.decodeParameters data = .ok p ↔
        p.Fits ∧ Wire.parameters.encode p = data) ∧
      (∀ c, standard.decodeCommitment data api = .ok c ↔
        Wire.commitment.encode c = data ∧ c.protocolVersion = api.version) ∧
      (∀ o, standard.decodeOutput data api = .ok o ↔
        o.Fits ∧ standard.encodeOutput o api = .ok data) ∧
      (∀ p, standard.decodeProof data api = .ok p ↔
        p.Fits ∧ Wire.proof.encode p = data) ∧
      (∀ b, standard.decodeBlock data api = .ok b ↔
        b.Fits ∧ standard.encodeBlock b api = .ok data)) ∧
    (Set.InjOn Wire.parameters.encode {p | p.Fits} ∧
      Function.Injective Wire.commitment.encode ∧
      Set.InjOn Wire.output.encode {o | o.Fits} ∧
      Set.InjOn Wire.proof.encode {p | p.Fits} ∧
      Set.InjOn Wire.block.encode {b | b.Fits}) := by
  refine ⟨⟨?_, ?_, ?_, ?_, ?_⟩, ?_, ?_, ?_, ?_, ?_⟩
  · exact fun p => decodeAs_eq_ok_iff Wire.exact_parameters
  · exact fun c => decodeCommitmentOf_eq_ok_iff
  · intro o
    rw [show standard.encodeOutput o api = .ok (Wire.output.encode o) from rfl, Except.ok.injEq]
    exact decodeAs_eq_ok_iff Wire.exact_output
  · exact fun p => decodeAs_eq_ok_iff Wire.exact_proof
  · intro b
    rw [show standard.encodeBlock b api = .ok (Wire.block.encode b) from rfl, Except.ok.injEq]
    exact decodeAs_eq_ok_iff Wire.exact_block
  · exact fun p hp q hq => Wire.exact_parameters.encode_inj hp hq
  · exact fun c d => Wire.exact_commitment.encode_inj trivial trivial
  · exact fun o ho p hp => Wire.exact_output.encode_inj ho hp
  · exact fun p hp q hq => Wire.exact_proof.encode_inj hp hq
  · exact fun b hb c hc => Wire.exact_block.encode_inj hb hc

end Codec

end LedgerWatch
