import LedgerWatch.Feed
import LedgerWatch.Message
import LedgerWatch.Sha256
import LedgerWatch.Table

/-!
# The node

A node held in memory: what it knows, what it was asked and the streams it sends. Its answers are
those of a real node as far as a client can tell, and each call is a function on its state.

## Main definitions

- `AccountRole`: what an account may be in the committee
- `Node`: the state
- `Node.readMetadata` and the other calls: the answer to a call, with the new state where the call
  leaves a trace
-/

namespace LedgerWatch

/-- What an account may be in the committee selection. -/
inductive AccountRole where
  | candidate
  | committeeMember
  | validator
  deriving DecidableEq

structure Node where
  statusFeed : Feed RawStatus := {}
  ledgerFeed : Feed LedgerRecord := {}
  transactionFeed : Feed RawTransaction := {}
  acceptedFeed : Feed BlockMetadata := {}
  blockFeed : Feed BlockMessage := {}
  status : Option RawStatus := none
  metadata : Table BlockId BlockMetadata := []
  /-- The status with which every metadata query fails. -/
  metadataFailure : Option RpcStatus := none
  blocks : Table BlockId Bytes := []
  cones : Table Slot (List BlockMetadata) := []
  transactions : Table TransactionId TransactionMetadata := []
  roles : List (AccountQuery × AccountRole) := []
  outputs : Table OutputId OutputReport := []
  commitments : List RawCommitment := []
  submitted : List Bytes := []
  routes : List String := []
  registeredRoutes : List ApiRoute := []
  tips : Tips := {}
  /-- The cooldown that the last status listener asked for. -/
  statusCooldown : Option UInt32 := none
  /-- The range that the last ledger listener asked for. -/
  ledgerRange : Option SlotRange := none
  metadataReads : Nat := 0
  tipsRequests : Nat := 0
  routeReads : Nat := 0

namespace Node

/-- The value that was found, or a refusal with the given text. -/
def found {α : Type} (message : String) : Option α → Except RpcStatus α
  | some a => .ok a
  | none => .error (.notFound message)

def readStatus (node : Node) : Except RpcStatus RawStatus :=
  match node.status with
  | some status => .ok status
  | none => .error (.unavailable "node status not set")

def readMetadata (id : BlockId) (node : Node) : Node × Except RpcStatus BlockMetadata :=
  ({ node with metadataReads := node.metadataReads + 1 },
    match node.metadataFailure with
    | some status => .error status
    | none => found ("block " ++ id.toText ++ " not found") (node.metadata.lookup id))

def readBlock (id : BlockId) (node : Node) : Except RpcStatus Bytes :=
  found ("block " ++ id.toText ++ " not found") (node.blocks.lookup id)

/-- Takes an encoded block in and names it by the hash of its bytes. -/
def submitBlock (data : Bytes) (node : Node) : Node × BlockId :=
  let id : BlockId := ⟨sha256 data, 0⟩
  ({ node with blocks := node.blocks.put id data, submitted := node.submitted ++ [data] }, id)

def readOutput (id : OutputId) (node : Node) : Except RpcStatus OutputReport :=
  found ("output " ++ id.toText ++ " not found") (node.outputs.lookup id)

def selects (query : CommitmentQuery) (commitment : RawCommitment) : Bool :=
  match query with
  | .bySlot slot => commitment.id.slot == slot
  | .byId id => commitment.id == id

/-- The first commitment that a query selects. -/
def readCommitment (query : CommitmentQuery) (node : Node) : Except RpcStatus RawCommitment :=
  found ("commitment " ++ query.describe ++ " not found") (node.commitments.find? (selects query))

/-- The metadata of the blocks in the past cone of a slot's commitment. -/
def readCone (slot : Slot) (node : Node) : Except RpcStatus (List BlockMetadata) :=
  found ("commitment for slot " ++ toString slot.toNat ++ " not found") (node.cones.lookup slot)

def readTransaction (id : TransactionId) (node : Node) : Except RpcStatus TransactionMetadata :=
  found ("transaction " ++ id.toText ++ " not found") (node.transactions.lookup id)

/-- Whether an account has a role at a slot. -/
def hasRole (query : AccountQuery) (role : AccountRole) (node : Node) : Bool :=
  node.roles.contains (query, role)

def registerRoute (route : ApiRoute) (node : Node) : Node :=
  { node with
    routes := if node.routes.contains route.route then node.routes
      else node.routes ++ [route.route]
    registeredRoutes := node.registeredRoutes ++ [route] }

/-- Takes back every registration of a route, and the route itself. -/
def unregisterRoute (route : String) (node : Node) : Node :=
  { node with
    routes := node.routes.filter (· != route)
    registeredRoutes := node.registeredRoutes.filter (·.route != route) }

/-- The node's tips, of which no more strong ones are given than asked for. -/
def requestTips (count : UInt32) (node : Node) : Node × Tips :=
  ({ node with tipsRequests := node.tipsRequests + 1 },
    { node.tips with strong := node.tips.strong.take count.toNat })

def readRoutes (node : Node) : Node × List String :=
  ({ node with routeReads := node.routeReads + 1 }, node.routes)

end Node

end LedgerWatch
