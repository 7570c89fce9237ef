import LedgerWatch.Fault

/-!
# Codecs

Turns payloads into values and back. Everything that follows is written against an arbitrary codec;
the standard one uses the wire format.

## Main definitions

- `Codec`: the conversions that the rest of the library needs
- `Codec.standard`: the wire format
- `Codec.Defects`, `Codec.impaired`: the standard codec with chosen defects
-/

namespace LedgerWatch

/-- Conversions between payloads and values under the protocol parameters in effect. -/
structure Codec where
  decodeParameters : Bytes → Except Fault Parameters
  decodeCommitment : Bytes → Parameters → Except Fault SlotCommitment
  decodeOutput : Bytes → Parameters → Except Fault TransactionOutput
  encodeOutput : TransactionOutput → Parameters → Except Fault Bytes
  decodeProof : Bytes → Parameters → Except Fault OutputProof
  /-- The identifier to which a proof binds an output. -/
  deriveOutputId : OutputProof → TransactionOutput → Parameters → Except Fault OutputId
  /-- An encoded block ends with its nonce as eight bytes, lowest first. -/
  encodeBlock : Block → Parameters → Except Fault Bytes
  decodeBlock : Bytes → Parameters → Except Fault Block

namespace Codec

/-- Decodes a whole payload of a kind. -/
def decodeAs {α : Type} (kind : Wire.ObjectKind) (format : Wire.Format α) (data : Bytes) :
    Except Fault α :=
  (format.decode data).mapError fun cause => .undecodable (.malformed kind cause)

/-- Decodes a commitment, which must belong to the protocol version in effect. -/
def decodeCommitmentOf (data : Bytes) (api : Parameters) : Except Fault SlotCommitment := do
  let commitment ← decodeAs .commitment Wire.commitment data
  if commitment.protocolVersion = api.version then .ok commitment
  else .error (.undecodable (.commitmentVersion commitment.protocolVersion api.version))

/-- The wire format as a codec. Encoding never fails. -/
def standard : Codec where
  decodeParameters := decodeAs .parameters Wire.parameters
  decodeCommitment := decodeCommitmentOf
  decodeOutput data _ := decodeAs .output Wire.output data
  encodeOutput output _ := .ok (Wire.output.encode output)
  decodeProof data _ := decodeAs .proof Wire.proof data
  deriveOutputId proof output _ := .ok (proof.outputId (Wire.output.encode output))
  encodeBlock block _ := .ok (Wire.block.encode block)
  decodeBlock data _ := decodeAs .block Wire.block data

/-- Defects of a codec, for rehearsing what callers do about them. -/
structure Defects where
  /-- Encoded blocks are cut or filled with zeros at the end to this length. -/
  blockLength : Option Nat := none
  failBlock : Bool := false
  failOutput : Bool := false
  /-- Encoded outputs have a zero byte too many. -/
  padOutput : Bool := false

/-- The fault of an encoder that is made to fail. -/
def injected : Fault := .unencodable (.other "injected")

/-- Cuts or fills a byte string with zeros at its end. -/
def resize (length : Nat) (data : Bytes) : Bytes :=
  data.take length ++ List.replicate (length - data.length) 0

/-- The standard codec with defects in its encoders. Identifiers are still derived from sound
encodings. -/
def impaired (defects : Defects) : Codec :=
  { standard with
    encodeOutput := fun output _ =>
      if defects.failOutput then .error injected
      else if defects.padOutput then .ok (Wire.output.encode output ++ [0])
      else .ok (Wire.output.encode output)
    encodeBlock := fun block _ =>
      if defects.failBlock then .error injected
      else
        match defects.blockLength with
        | some length => .ok (resize length (Wire.block.encode block))
        | none => .ok (Wire.block.encode block) }

end Codec

end LedgerWatch
