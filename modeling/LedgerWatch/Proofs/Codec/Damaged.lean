import LedgerWatch.Proofs.Codec
import LedgerWatch.Proofs.Wire.Truncated

/-!
# Damaged payloads

The standard codec refuses an encoding that is cut anywhere, and one with bytes behind it. What it
says of the cause depends on the place of the cut alone: within one of the texts of the parameters,
behind its length, the text is too long, and anywhere else the data end.

## Main definitions

- `Parameters.CutInText`: a cut falls into one of the texts
- `Codec.DetectsDamage`: what is said of an encoding that is cut or continued

## Main results

- `Wire.cutShort_parameters`, `Wire.cutShort_commitment`, `Wire.cutShort_output`,
  `Wire.cutShort_proof`, `Wire.cutShort_block`: the formats of the objects
- `Codec.standard_detectsDamage`: the codec, for each kind of object
-/

namespace LedgerWatch

open Wire (FitsLength)

/-- The cut behind the first `n` bytes falls into one of the texts, behind its length. The version
takes one byte and each of the two lengths eight. -/
def Parameters.CutInText (p : Parameters) (n : Nat) : Prop :=
  let name := (Utf8.encode p.networkName).length
  let hrp := (Utf8.encode p.bech32Hrp).length
  (9 ≤ n ∧ n < 9 + name) ∨ (17 + name ≤ n ∧ n < 17 + name + hrp)

instance (p : Parameters) (n : Nat) : Decidable (p.CutInText n) :=
  inferInstanceAs (Decidable (_ ∨ _))

namespace Wire

open Format

theorem cutShort_parameters : parameters.CutShort Parameters.Fits fun p n =>
    if p.CutInText n then .textTooLong else .endOfData := by
  have hnumbers := cutShort_uint8.pair exact_uint8 <|
    cutShort_uint32.pair exact_uint32 cutShort_uint64
  have hfields := cutShort_uint8.pair exact_uint8 <| cutShort_text.pair exact_text <|
    cutShort_text.pair exact_text hnumbers
  refine (hfields.via _ _).of_eq (fun p h => ?_) fun p n hn => ?_
  · exact ⟨trivial, h.1, h.2, trivial, trivial, trivial⟩
  · simp only [length_write_uint8, text, List.length_append, length_write_uint64, ite_self]
    -- what is left compares two cases over the lengths of the texts
    by_cases hcut : p.CutInText n
    · rw [if_pos hcut]
      unfold Parameters.CutInText at hcut
      split_ifs <;> first | rfl | omega
    · rw [if_neg hcut]
      unfold Parameters.CutInText at hcut
      split_ifs <;> first | rfl | omega

theorem cutShort_commitment : commitment.CutShort (fun _ => True) fun _ _ => .endOfData := by
  have hfields := cutShort_uint8.pair exact_uint8 <| cutShort_uint32.pair exact_uint32 <|
    (cutShort_slotId .commitment).pair (exact_slotId .commitment) <|
    cutShort_hash.pair exact_hash <| cutShort_uint64.pair exact_uint64 cutShort_uint64
  exact (hfields.via _ _).of_eq (by simp) (by simp)

theorem cutShort_output : output.CutShort TransactionOutput.Fits fun _ _ => .endOfData := by
  have hfields := cutShort_uint64.pair exact_uint64 <| cutShort_uint64.pair exact_uint64 <|
    cutShort_hash.pair exact_hash <| cutShort_uint8.list exact_uint8
  exact (hfields.via _ _).of_eq (by simp [TransactionOutput.Fits]) (by simp)

theorem cutShort_side : side.CutShort (fun _ => True) fun _ _ => .endOfData where
  read_take {a n} _ hn := by
    cases a with
    | left =>
      have hread := cutShort_uint32.read_take (a := 0) trivial hn
      simp only [side, hread]
      rfl
    | right =>
      have hread := cutShort_uint32.read_take (a := 1) trivial hn
      simp only [side, hread]
      rfl

theorem cutShort_step : step.CutShort (fun _ => True) fun _ _ => .endOfData :=
  ((cutShort_hash.pair exact_hash cutShort_side).via _ _).of_eq (by simp) (by simp)

theorem cutShort_proof : proof.CutShort OutputProof.Fits fun _ _ => .endOfData := by
  have hfields := cutShort_uint32.pair exact_uint32 <| cutShort_hash.pair exact_hash <|
    cutShort_uint16.pair exact_uint16 <| cutShort_step.list exact_step
  exact (hfields.via _ _).of_eq (by simp [OutputProof.Fits]) (by simp)

theorem cutShort_block : block.CutShort Block.Fits fun _ _ => .endOfData := by
  have hparents := (cutShort_slotId .block).list (exact_slotId .block)
  have hexact := (exact_slotId .block).list
  have hfields := cutShort_uint8.pair exact_uint8 <| cutShort_uint64.pair exact_uint64 <|
    cutShort_uint64.pair exact_uint64 <|
    (cutShort_slotId .commitment).pair (exact_slotId .commitment) <|
    cutShort_uint32.pair exact_uint32 <| hparents.pair hexact <| hparents.pair hexact <|
    hparents.pair hexact <|
    (cutShort_uint8.list exact_uint8).pair exact_uint8.list cutShort_uint64
  refine (hfields.via _ _).of_eq (fun b h => ?_) (by simp)
  simp [h.strongParents, h.weakParents, h.shallowLikeParents, h.payload]

end Wire

namespace Codec

/-- A payload that is a proper part of an encoding is refused, for a cause told by the value and the
number of bytes that are there. One that goes on behind an encoding is refused for that. No encoding
is the beginning of another. -/
structure DetectsDamage {α : Type} (decode : Bytes → Except Fault α) (kind : Wire.ObjectKind)
    (encode : α → Bytes) (fits : α → Prop) (cause : α → Nat → Wire.Cause) : Prop where
  cut : ∀ a data, fits a → data <+: encode a → data ≠ encode a →
    decode data = .error (.undecodable (.malformed kind (cause a data.length)))
  continued : ∀ a extra, fits a → extra ≠ [] →
    decode (encode a ++ extra) = .error (.undecodable (.malformed kind .trailingBytes))
  eq_of_isPrefix : ∀ a b, fits a → fits b → encode a <+: encode b → a = b

theorem detectsDamage_decodeAs {α : Type} {kind : Wire.ObjectKind} {format : Wire.Format α}
    {fits : α → Prop} {cause : α → Nat → Wire.Cause} (hexact : format.Exact fits)
    (hcut : format.CutShort fits cause) :
    DetectsDamage (decodeAs kind format) kind format.encode fits cause where
  cut a data ha hpart hproper := by
    rw [decodeAs, hcut.decode_of_isPrefix ha hpart hproper]
    rfl
  continued a extra ha hextra := by
    rw [decodeAs, hexact.decode_append ha hextra]
    rfl
  eq_of_isPrefix a b ha hb hpart := hexact.eq_of_isPrefix ha hb hpart

/-- A further check of what was decoded comes too late to matter. -/
theorem DetectsDamage.of_error {α : Type} {decode decode' : Bytes → Except Fault α}
    {kind : Wire.ObjectKind} {encode : α → Bytes} {fits : α → Prop}
    {cause : α → Nat → Wire.Cause} (h : DetectsDamage decode kind encode fits cause)
    (herror : ∀ data fault, decode data = .error fault → decode' data = .error fault) :
    DetectsDamage decode' kind encode fits cause where
  cut a data ha hpart hproper := herror _ _ (h.cut a data ha hpart hproper)
  continued a extra ha hextra := herror _ _ (h.continued a extra ha hextra)
  eq_of_isPrefix := h.eq_of_isPrefix

/-- The encoding of a value of any kind is refused if it is cut or continued, whatever parameters
are in effect. If it is cut within a text of the parameters, this is said in other words than at any
other place. -/
theorem standard_detectsDamage (api : Parameters) :
    (DetectsDamage standard.decodeParameters .parameters Wire.parameters.encode Parameters.Fits
        (fun p n => if p.CutInText n then .textTooLong else .endOfData) ∧
      DetectsDamage (fun data => standard.decodeCommitment data api) .commitment
        Wire.commitment.encode (fun _ => True) (fun _ _ => .endOfData) ∧
      DetectsDamage (fun data => standard.decodeOutput data api) .output
        Wire.output.encode TransactionOutput.Fits (fun _ _ => .endOfData) ∧
      DetectsDamage (fun data => standard.decodeProof data api) .proof
        Wire.proof.encode OutputProof.Fits (fun _ _ => .endOfData) ∧
      DetectsDamage (fun data => standard.decodeBlock data api) .block
        Wire.block.encode Block.Fits (fun _ _ => .endOfData)) ∧
    Wire.Cause.textTooLong.message = "io error: " ∧
    Wire.Cause.endOfData.message = "io error: unexpected end of file" ∧
    Wire.Cause.trailingBytes.message = "Slice had bytes remaining after deserialization" := by
  refine ⟨⟨?_, ?_, ?_, ?_, ?_⟩, rfl, rfl, rfl⟩
  · exact detectsDamage_decodeAs Wire.exact_parameters Wire.cutShort_parameters
  · refine (detectsDamage_decodeAs Wire.exact_commitment Wire.cutShort_commitment).of_error ?_
    intro data fault hfault
    exact bind_eq_error_iff.mpr (.inl hfault)
  · exact detectsDamage_decodeAs Wire.exact_output Wire.cutShort_output
  · exact detectsDamage_decodeAs Wire.exact_proof Wire.cutShort_proof
  · exact detectsDamage_decodeAs Wire.exact_block Wire.cutShort_block

/-- The default parameters, cut within the name of the network and within its length. -/
example :
    standard.decodeParameters ((Wire.parameters.encode {}).take 12) =
        .error (.undecodable (.malformed .parameters .textTooLong)) ∧
      standard.decodeParameters ((Wire.parameters.encode {}).take 7) =
        .error (.undecodable (.malformed .parameters .endOfData)) := ⟨rfl, rfl⟩

end Codec

end LedgerWatch
