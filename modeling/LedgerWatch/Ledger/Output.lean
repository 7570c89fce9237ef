import LedgerWatch.Codec
import LedgerWatch.Message

/-!
# Verified outputs

An output that the node sends is decoded, checked to be the canonical encoding of its value, and
checked to have the identifier that its proof derives. Only then is it handed out.

## Main definitions

- `VerifiedOutput`: an output that passed all checks, with what the node tells about it
- `verifyOutput`: the checks
-/

namespace LedgerWatch

structure OutputMetadata where
  blockId : BlockId
  slotBooked : Slot
  includedIn : Option CommitmentId
  spend : Option Spend
  /-- The latest commitment known when the output was read. -/
  latestCommitmentId : CommitmentId
  deriving DecidableEq

def OutputMetadata.isSpent (metadata : OutputMetadata) : Bool := metadata.spend.isSome

/-- An output whose identity has been verified. -/
structure VerifiedOutput where
  id : OutputId
  value : TransactionOutput
  proof : OutputProof
  metadata : OutputMetadata
  /-- The encoded output as received. -/
  raw : Bytes
  deriving DecidableEq

/-- Decodes an output and verifies its identity. The checks run in the order of the steps, and the
first that fails decides the fault. -/
def verifyOutput (codec : Codec) (api : Parameters) (raw : RawOutput) (spend : Option Spend)
    (latest : CommitmentId) : Except Fault VerifiedOutput := do
  let value ← codec.decodeOutput raw.output api
  let encoded ← codec.encodeOutput value api
  -- The proof speaks of the encoded value, so bytes that differ from it would go unproved.
  if encoded ≠ raw.output then
    throw (.undecodable .outputNotCanonical)
  let proof ← codec.decodeProof raw.proof api
  let derived ← codec.deriveOutputId proof value api
  if derived ≠ raw.outputId then
    throw (.outputIdMismatch raw.outputId derived)
  return {
    id := raw.outputId
    value, proof
    metadata := {
      blockId := raw.blockId
      slotBooked := raw.slotBooked
      includedIn := raw.includedIn
      spend
      latestCommitmentId := latest }
    raw := raw.output }

def verifySpent (codec : Codec) (api : Parameters) (latest : CommitmentId) (spent : RawSpent) :
    Except Fault VerifiedOutput :=
  verifyOutput codec api spent.output (some spent.spend) latest

def verifyUnspent (codec : Codec) (api : Parameters) (latest : CommitmentId) (raw : RawOutput) :
    Except Fault VerifiedOutput :=
  verifyOutput codec api raw none latest

end LedgerWatch
