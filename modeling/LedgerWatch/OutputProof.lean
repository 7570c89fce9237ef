import LedgerWatch.Chain
import LedgerWatch.Merkle
import LedgerWatch.Sha256

/-!
# Output identity proofs

An output's identifier is derived from its encoded bytes. They are hashed into a leaf, the leaf is
joined along an audit path into the root over the transaction's outputs, and the transaction's hash
is the hash of a commitment to the rest of the transaction and that root.

## Main definitions

- `merkleRoot`: the root over a list of hashes, all zeros for an empty list
- `OutputProof`: the data that binds an output to its identifier
- `OutputProof.build?`: the proof for one of a transaction's outputs
- `OutputProof.outputId`: the identifier that a proof gives to an output
-/

namespace LedgerWatch

/-- The Merkle root over a list of hashes. The empty list has the zero hash as its root. -/
def merkleRoot (leaves : List Hash) : Hash :=
  (Merkle.root? sha256Pair leaves).getD Hash.zero

/-- Binds an output to the transaction that creates it and to its index there. -/
structure OutputProof where
  slot : Slot
  transactionCommitment : Hash
  outputIndex : UInt16
  path : List (Merkle.Step Hash)
  deriving DecidableEq

namespace OutputProof

/-- The proof for the output at an index. There is none if the list ends before it or if it is
too large for an output index. -/
def build? (slot : Slot) (transactionCommitment : Hash) (outputs : List Bytes) (index : Nat) :
    Option OutputProof :=
  if index < UInt16.size then
    (Merkle.path? sha256Pair (outputs.map sha256) index).map
      (⟨slot, transactionCommitment, UInt16.ofNat index, ·⟩)
  else none

/-- The root over the transaction's outputs to which a proof leads from an output. -/
def outputsRoot (proof : OutputProof) (output : Bytes) : Hash :=
  Merkle.climb sha256Pair (sha256 output) proof.path

/-- The identifier that a proof gives to an output. -/
def outputId (proof : OutputProof) (output : Bytes) : OutputId :=
  ⟨⟨sha256Pair proof.transactionCommitment (proof.outputsRoot output), proof.slot⟩,
    proof.outputIndex⟩

end OutputProof

end LedgerWatch
