import LedgerWatch.Chain

/-!
# Calls on the node

The status with which the node refuses a call or breaks off a stream, and the requests that carry
more than one value.

## Main definitions

- `RpcCode`, `RpcStatus`: why a call failed
- `CommitmentQuery`, `AccountQuery`, `SlotRange`, `ApiRoute`: requests
-/

namespace LedgerWatch

/-- Why a call failed. -/
inductive RpcCode where
  | cancelled
  | unknown
  | invalidArgument
  | deadlineExceeded
  | notFound
  | alreadyExists
  | unavailable
  | unimplemented
  | internal
  deriving DecidableEq

namespace RpcCode

def all : List RpcCode :=
  [cancelled, unknown, invalidArgument, deadlineExceeded, notFound, alreadyExists, unavailable,
    unimplemented, internal]

def name : RpcCode → String
  | cancelled => "Cancelled"
  | unknown => "Unknown"
  | invalidArgument => "InvalidArgument"
  | deadlineExceeded => "DeadlineExceeded"
  | notFound => "NotFound"
  | alreadyExists => "AlreadyExists"
  | unavailable => "Unavailable"
  | unimplemented => "Unimplemented"
  | internal => "Internal"

def ofName? (name : String) : Option RpcCode :=
  all.find? fun code => code.name == name

end RpcCode

/-- The node's answer to a call that failed. -/
structure RpcStatus where
  code : RpcCode
  message : String
  deriving DecidableEq

namespace RpcStatus

def notFound (message : String) : RpcStatus := ⟨.notFound, message⟩

def cancelled : RpcStatus := ⟨.cancelled, "context canceled"⟩

def unavailable (message : String) : RpcStatus := ⟨.unavailable, message⟩

/-- Whether the node does not know what was asked for. -/
def isNotFound (status : RpcStatus) : Bool := status.code == .notFound

def isCancelled (status : RpcStatus) : Bool := status.code == .cancelled

def toText (status : RpcStatus) : String :=
  "rpc error: code = " ++ status.code.name ++ ", message = " ++ status.message

end RpcStatus

/-- Selects a commitment. -/
inductive CommitmentQuery where
  | bySlot (slot : Slot)
  | byId (id : CommitmentId)
  deriving DecidableEq

/-- The form in which a query appears in the node's refusal. -/
def CommitmentQuery.describe : CommitmentQuery → String
  | bySlot slot => "BySlot(" ++ toString slot.toNat ++ ")"
  | byId id => "ById(" ++ id.describe ++ ")"

/-- Selects an account as of a slot. -/
structure AccountQuery where
  account : AccountId
  slot : Slot
  deriving DecidableEq

/-- A range of slots, both ends included; an end of zero leaves the range open. -/
structure SlotRange where
  first : Slot
  last : Slot
  deriving DecidableEq

/-- A route exposed through the node's own interface and the server behind it. -/
structure ApiRoute where
  route : String
  host : String := ""
  port : UInt32 := 0
  path : String := ""
  deriving DecidableEq

end LedgerWatch
