import LedgerWatch.Rpc
import LedgerWatch.Wire.Object

/-!
# Faults

Everything that can go wrong between this library and the node, by cause. The wording of a fault is
decided here and nowhere else.

## Main definitions

- `Undecodable`, `Unencodable`: why a payload has no value or a value no payload
- `Fault`: all causes
- `Fault.message`: their wording
- `Fault.isNotFound`, `Fault.isCancellation`, `Fault.isProtocolViolation`, `Fault.isRecoverable`:
  how a caller may react
-/

namespace LedgerWatch

inductive Undecodable where
  /-- The bytes are no encoding of an object of the kind. -/
  | malformed (kind : Wire.ObjectKind) (cause : Wire.Cause)
  /-- A commitment belongs to another protocol version than the one in effect. -/
  | commitmentVersion (got expected : UInt8)
  /-- An output's bytes are not the ones that encoding its value gives. -/
  | outputNotCanonical
  /-- A codec other than the standard one gives its own reason. -/
  | other (reason : String)
  deriving DecidableEq

def Undecodable.message : Undecodable → String
  | malformed kind cause => kind.name ++ ": " ++ cause.message
  | commitmentVersion got expected => "commitment: protocol version " ++ toString got.toNat ++
      " does not match " ++ toString expected.toNat
  | outputNotCanonical => "output: bytes are not the canonical encoding"
  | other reason => reason

inductive Unencodable where
  /-- A block to be mined has no encoding, for the reason in words. -/
  | blockToMine (reason : String)
  /-- An encoded block has no room for its nonce. -/
  | shorterThanNonce
  /-- A codec other than the standard one gives its own reason. -/
  | other (reason : String)
  deriving DecidableEq

def Unencodable.message : Unencodable → String
  | blockToMine reason => "unable to perform PoW as block can't be serialized: " ++ reason
  | shorterThanNonce => "encoded block shorter than its nonce"
  | other reason => reason

/-- What went wrong. -/
inductive Fault where
  | batchAlreadyOpen
  /-- A record or a closing marker arrives while no batch is open. -/
  | noOpenBatch
  /-- A closing marker disagrees with the batch it closes. -/
  | batchMismatch
  | alreadyRegistered (block : BlockId)
  /-- The node's parameters are of another protocol version. -/
  | unsupportedVersion (got supported : UInt8)
  /-- An output's proof does not give it the identifier it was handed out under. -/
  | outputIdMismatch (expected derived : OutputId)
  | undecodable (reason : Undecodable)
  | unencodable (reason : Unencodable)
  /-- The node refused a call or broke off a stream. -/
  | rpc (status : RpcStatus)
  /-- The node does not offer a capability yet. -/
  | notAvailable (capability : String)
  /-- The caller cancelled the operation. -/
  | aborted
  /-- A block without parents is to be mined and there is no way to fetch any. -/
  | parentsNotGiven
  /-- The node runs another network than the one asked for. -/
  | networkMismatch (network target : String)
  /-- An address is not a host and a port. -/
  | invalidBindAddress (address : String)
  /-- No status of the node is known yet. -/
  | statusUnavailable
  | internal (reason : String)
  deriving DecidableEq

namespace Fault

def message : Fault → String
  | batchAlreadyOpen =>
    "trying to begin a ledger update transaction with an already active transaction"
  | noOpenBatch => "trying to process a ledger update operation without active transaction"
  | batchMismatch => "ledger update transaction ended before receiving all operations"
  | alreadyRegistered block =>
    "callback for block ID is already registered: block " ++ block.toText
  | unsupportedVersion got supported => "unsupported protocol version " ++ toString got.toNat ++
      " vs " ++ toString supported.toNat
  | outputIdMismatch expected derived => "output ID mismatch. Expected " ++ expected.toText ++
      ", got " ++ derived.toText
  | undecodable reason => "Decode error: " ++ reason.message
  | unencodable reason => "Encode error: " ++ reason.message
  | rpc status => status.toText
  | notAvailable capability => capability ++ " is not available on the node"
  | aborted => "operation was aborted"
  | parentsNotGiven => "no parents given"
  | networkMismatch network target => "network name mismatch, networkName: \"" ++ network ++
      "\", targetNetworkName: \"" ++ target ++ "\""
  | invalidBindAddress address => "invalid address " ++ address
  | statusUnavailable => "node status not available"
  | internal reason => "Internal error: " ++ reason

/-- Whether the node does not know what was asked for. -/
def isNotFound : Fault → Bool
  | rpc status => status.isNotFound
  | _ => false

/-- Whether the fault stems from cancellation and not from failure. -/
def isCancellation : Fault → Bool
  | aborted => true
  | rpc status => status.isCancelled
  | _ => false

/-- Whether the two sides disagree on what may come next. -/
def isProtocolViolation : Fault → Bool
  | batchAlreadyOpen | noOpenBatch | batchMismatch | alreadyRegistered _ => true
  | _ => false

/-- Whether the same call may succeed when it is tried again later. -/
def isRecoverable : Fault → Bool
  | notAvailable _ | statusUnavailable => true
  | rpc status => status.code == .unavailable || status.code == .deadlineExceeded
  | _ => false

end Fault

end LedgerWatch
