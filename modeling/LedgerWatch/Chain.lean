import LedgerWatch.Identifier

/-!
# Chain and ledger values

The decoded values that the node's encoded payloads stand for.

## Main definitions

- `Parameters`: the protocol parameters, under which everything else is decoded
- `SlotCommitment`, `Commitment`: the content of a commitment, alone and with its identifier
- `Block`, `BlockState`, `BlockMetadata`, `Tips`
- `TransactionOutput`, `TransactionState`, `TransactionMetadata`
-/

namespace LedgerWatch

/-- The protocol parameters in effect on a network. -/
structure Parameters where
  version : UInt8 := 3
  networkName : String := "testnet"
  bech32Hrp : String := "rms"
  slotsPerEpochExponent : UInt8 := 13
  minPowScore : UInt32 := 0
  tokenSupply : UInt64 := 1813620509061365
  deriving DecidableEq

instance : Inhabited Parameters := ⟨{}⟩

/-- The epoch of a slot, where an epoch is two to the exponent slots long. -/
def Parameters.epoch (api : Parameters) (slot : Slot) : Epoch :=
  UInt32.ofNat (slot.toNat >>> api.slotsPerEpochExponent.toNat)

structure SlotCommitment where
  protocolVersion : UInt8 := 0
  slot : Slot := 0
  previousId : CommitmentId := .empty
  rootsId : Hash := Hash.zero
  cumulativeWeight : UInt64 := 0
  referenceManaCost : UInt64 := 0
  deriving DecidableEq

/-- A commitment's identifier together with its decoded content. -/
structure Commitment where
  id : CommitmentId
  content : SlotCommitment
  deriving DecidableEq

/-- The place of a commitment in the sequence of commitments, as its identifier tells it. -/
def Commitment.slot (c : Commitment) : Slot := c.id.slot

structure Block where
  protocolVersion : UInt8 := 0
  networkId : UInt64 := 0
  issuingTime : UInt64 := 0
  slotCommitmentId : CommitmentId := .empty
  latestFinalizedSlot : Slot := 0
  strongParents : List BlockId := []
  weakParents : List BlockId := []
  shallowLikeParents : List BlockId := []
  payload : Bytes := []
  nonce : UInt64 := 0
  deriving DecidableEq

/-- How far the node has come with a block. -/
inductive BlockState where
  | unknown
  | pending
  | accepted
  | confirmed
  | finalized
  | rejected
  | failed
  deriving DecidableEq

namespace BlockState

/-- Every state, in the order in which the node lists them. -/
def all : List BlockState :=
  [unknown, pending, accepted, confirmed, finalized, rejected, failed]

def name : BlockState → String
  | unknown => "Unknown"
  | pending => "Pending"
  | accepted => "Accepted"
  | confirmed => "Confirmed"
  | finalized => "Finalized"
  | rejected => "Rejected"
  | failed => "Failed"

def ofName? (name : String) : Option BlockState :=
  all.find? fun state => state.name == name

/-- Acceptance is for good: a confirmed or finalized block is accepted too. -/
def isAccepted : BlockState → Bool
  | accepted | confirmed | finalized => true
  | unknown | pending | rejected | failed => false

end BlockState

structure BlockMetadata where
  blockId : BlockId := .empty
  state : BlockState := .unknown
  failureReason : Option String := none
  deriving DecidableEq

/-- Blocks that a new block may reference as its parents. -/
structure Tips where
  strong : List BlockId := []
  weak : List BlockId := []
  shallowLike : List BlockId := []
  deriving DecidableEq

structure TransactionOutput where
  amount : UInt64 := 0
  mana : UInt64 := 0
  owner : Hash := Hash.zero
  features : Bytes := []
  deriving DecidableEq

/-- How far the node has come with a transaction. -/
inductive TransactionState where
  | noTransaction
  | pending
  | accepted
  | committed
  | finalized
  | failed
  deriving DecidableEq

namespace TransactionState

/-- Every state, in the order in which the node lists them. -/
def all : List TransactionState :=
  [noTransaction, pending, accepted, committed, finalized, failed]

def name : TransactionState → String
  | noTransaction => "NoTransaction"
  | pending => "Pending"
  | accepted => "Accepted"
  | committed => "Committed"
  | finalized => "Finalized"
  | failed => "Failed"

def ofName? (name : String) : Option TransactionState :=
  all.find? fun state => state.name == name

end TransactionState

structure TransactionMetadata where
  transactionId : TransactionId := .empty
  state : TransactionState := .noTransaction
  earliestAttachmentSlot : Slot := 0
  failureReason : Option String := none
  deriving DecidableEq

end LedgerWatch
