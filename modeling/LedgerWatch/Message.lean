import LedgerWatch.Rpc

/-!
# Messages of the node

What the node sends, with every encoded payload still a byte string. Nothing in a message has been
checked: an identifier here is only what the node claims.

## Main definitions

- `RawParameters`, `RawCommitment`, `RawStatus`: the node's status
- `RawOutput`, `RawSpent`, `OutputReport`: outputs and lookups of them
- `BatchMarker`, `LedgerRecord`: the ledger update stream
- `RawTransaction`, `BlockMessage`: the transaction and block streams
-/

namespace LedgerWatch

/-- Encoded protocol parameters under a version tag. -/
structure RawParameters where
  protocolVersion : UInt8 := 0
  params : Bytes := []
  deriving DecidableEq

/-- An encoded commitment under the identifier that the node claims for it. -/
structure RawCommitment where
  id : CommitmentId := .empty
  data : Bytes := []
  deriving DecidableEq

/-- A snapshot of the node's status. -/
structure RawStatus where
  isHealthy : Bool := false
  latest : Option RawCommitment := none
  finalized : Option RawCommitment := none
  pruningEpoch : Epoch := 0
  parameters : RawParameters := {}
  deriving DecidableEq

/-- An output as the node stores it. -/
structure RawOutput where
  blockId : BlockId := .empty
  outputId : OutputId := .empty
  slotBooked : Slot := 0
  includedIn : Option CommitmentId := none
  output : Bytes := []
  proof : Bytes := []
  deriving DecidableEq

/-- Who spent an output, and when. -/
structure Spend where
  transactionId : TransactionId := .empty
  slot : Slot := 0
  includedIn : Option CommitmentId := none
  deriving DecidableEq

structure RawSpent where
  output : RawOutput := {}
  spend : Spend := {}
  deriving DecidableEq

/-- The two markers around a batch of ledger records. -/
inductive MarkerKind where
  | opening
  | closing
  deriving DecidableEq

/-- Opens or closes one atomic change of the ledger. -/
structure BatchMarker where
  kind : MarkerKind
  commitmentId : CommitmentId := .empty
  consumedCount : UInt32 := 0
  createdCount : UInt32 := 0
  deriving DecidableEq

/-- One record of the ledger update stream. -/
inductive LedgerRecord where
  | marker (marker : BatchMarker)
  | consumed (spent : RawSpent)
  | created (output : RawOutput)
  deriving DecidableEq

/-- An accepted transaction with its outputs. -/
structure RawTransaction where
  transactionId : TransactionId := .empty
  slot : Slot := 0
  consumed : List RawSpent := []
  created : List RawOutput := []
  deriving DecidableEq

/-- The state in which the node finds an output. -/
inductive OutputState where
  | unspent (output : RawOutput)
  | spent (spent : RawSpent)
  deriving DecidableEq

namespace OutputState

def output : OutputState → RawOutput
  | unspent o => o
  | spent s => s.output

/-- The spend of a spent output. -/
def spend? : OutputState → Option Spend
  | unspent _ => none
  | spent s => some s.spend

end OutputState

/-- The node's answer to an output lookup. -/
structure OutputReport where
  latestCommitmentId : CommitmentId
  state : OutputState
  deriving DecidableEq

structure BlockMessage where
  blockId : BlockId := .empty
  data : Bytes := []
  deriving DecidableEq

end LedgerWatch
