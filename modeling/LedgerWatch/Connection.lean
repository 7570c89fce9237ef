import LedgerWatch.Acceptance
import LedgerWatch.Ledger.Transaction
import LedgerWatch.Mining.Clock
import LedgerWatch.Node
import LedgerWatch.Settings.Connection

/-!
# Connections

A connection puts the settings, the codec and the picture of a node together. Its calls ask the node
and hand out only what decodes, and outputs only if they are the ones asked for.

## Main definitions

- `Connection`, `Connection.connect`
- `Connection.checkOutput` and the other checks of an answer, for any answer of any node
- `Connection.output` and the other calls
- `parseBindAddress`: a host and a port
- `Connection.waitForRoute`: asks again and again until a route is there
-/

namespace LedgerWatch

/-- Splits an address into its host and its port. There has to be exactly one colon. -/
def parseBindAddress (address : String) : Except Fault (String × UInt32) :=
  match address.toList.splitOn ':' with
  | [host, port] =>
    match Decimal.read? UInt32.size (String.ofList port) with
    | some port => .ok (String.ofList host, UInt32.ofNat port)
    | none => .error (.invalidBindAddress address)
  | _ => .error (.invalidBindAddress address)

structure Connection where
  settings : ConnectionSettings
  codec : Codec
  cache : StatusCache

namespace Connection

/-- The answer of the node, with its refusal as a fault. -/
def answered {α : Type} (answer : Except RpcStatus α) : Except Fault α :=
  answer.mapError .rpc

/-- The picture of a node whose first status is acceptable: its parameters are supported and it
runs the network asked for. -/
def checkStatus (codec : Codec) (settings : ConnectionSettings) (raw : RawStatus) :
    Except Fault StatusCache := do
  let api ← decodeRawParameters codec raw.parameters
  if let some target := settings.requiredNetwork? then
    if target ≠ api.networkName then
      throw (.networkMismatch api.networkName target)
  let (cache, _) ← StatusCache.empty.apply codec raw
  return cache

def connect (codec : Codec) (settings : ConnectionSettings) (node : Node) :
    Except Fault Connection := do
  let raw ← answered node.readStatus
  let cache ← checkStatus codec settings raw
  return { settings, codec, cache }

/-- A status from the stream. One that is refused changes nothing. -/
def receiveStatus (raw : RawStatus) (c : Connection) : Connection × List StatusEvent :=
  match c.cache.apply c.codec raw with
  | .ok (cache, progress) => ({ c with cache }, progress.events)
  | .error _ => (c, [])

def checkBlock (slot : Slot) (data : Bytes) (c : Connection) : Except Fault Block := do
  let api ← c.cache.apiForSlot slot
  c.codec.decodeBlock data api

/-- Verifies an output and that it is the one asked for. -/
def checkOutput (id : OutputId) (report : OutputReport) (c : Connection) :
    Except Fault VerifiedOutput := do
  let api ← c.cache.apiForSlot id.slot
  let output ← verifyOutput c.codec api report.state.output report.state.spend?
    report.latestCommitmentId
  if output.id ≠ id then throw (.outputIdMismatch id output.id)
  return output

def checkCommitment (raw : RawCommitment) (c : Connection) : Except Fault Commitment := do
  let api ← c.cache.apiForSlot raw.id.slot
  decodeRawCommitment c.codec api raw

def submitBlock (block : Block) (node : Node) (c : Connection) : Node × Except Fault BlockId :=
  match c.cache.parameters.bind (c.codec.encodeBlock block) with
  | .error fault => (node, .error fault)
  | .ok data =>
    let (node, id) := node.submitBlock data
    (node, .ok id)

def blockMetadata (id : BlockId) (node : Node) : Node × Except Fault BlockMetadata :=
  let (node, answer) := node.readMetadata id
  (node, answered answer)

def block (id : BlockId) (node : Node) (c : Connection) : Except Fault Block := do
  let data ← answered (node.readBlock id)
  c.checkBlock id.slot data

def transactionMetadata (id : TransactionId) (node : Node) : Except Fault TransactionMetadata :=
  answered (node.readTransaction id)

def output (id : OutputId) (node : Node) (c : Connection) : Except Fault VerifiedOutput := do
  let report ← answered (node.readOutput id)
  c.checkOutput id report

def commitment (query : CommitmentQuery) (node : Node) (c : Connection) :
    Except Fault Commitment := do
  let raw ← answered (node.readCommitment query)
  c.checkCommitment raw

/-- Registers a route at any node, through its call for this. The node is asked only if the address
can be parsed. -/
def registerRouteBy {ω : Type} (call : ApiRoute → ω → ω × Except RpcStatus Unit)
    (route address path : String) (w : ω) : ω × Except Fault Unit :=
  match parseBindAddress address with
  | .error fault => (w, .error fault)
  | .ok (host, port) =>
    let (w, answer) := call { route, host, port, path } w
    (w, answered answer)

def registerRoute (route address path : String) (node : Node) : Node × Except Fault Unit :=
  registerRouteBy (fun request node => (node.registerRoute request, .ok ())) route address path node

def checkRoute (route : String) (node : Node) : Node × Except Fault Unit :=
  let (node, routes) := node.readRoutes
  (node, if routes.contains route then .ok () else .error (.notAvailable route))

/-- What happens while a route is waited for. -/
structure RouteSchedule where
  cancelAt : Option Nat := none
  exposeAt : Option Nat := none

/-- The node once the time of exposure has come. -/
def RouteSchedule.expose (schedule : RouteSchedule) (route : String) (fromTime toTime : Nat)
    (node : Node) : Node :=
  if schedule.exposeAt.any fun t => fromTime ≤ t && t < toTime then
    { node with routes := node.routes ++ [route] }
  else node

/-- Waits for a route with at most `reads` reads, the next of which is at `now`. -/
def waitFrom (schedule : RouteSchedule) (route : String) (interval : Nat) :
    (reads : Nat) → (now : Nat) → Node → Node × Except Fault Unit
  | 0, _, node => (node, .error (.notAvailable route))
  | reads + 1, now, node =>
    match checkRoute route node with
    | (node, .ok ()) => (node, .ok ())
    | (node, .error _) =>
      let next := now + interval
      match schedule.cancelAt with
      | some t =>
        if t < next then (schedule.expose route now t node, .error .aborted)
        else waitFrom schedule route interval reads next (schedule.expose route now next node)
      | none => waitFrom schedule route interval reads next (schedule.expose route now next node)

/-- Waits until the node exposes a route. One read more than there are intervals up to the last
event of the schedule is enough to see it. -/
def waitForRoute (route : String) (cancelled : Bool) (schedule : RouteSchedule) (node : Node)
    (c : Connection) : Node × Except Fault Unit :=
  if cancelled then (node, .error .aborted)
  else
    let interval := c.settings.retryIntervalMs.toNat
    let horizon := max (schedule.cancelAt.getD 0) (schedule.exposeAt.getD 0)
    waitFrom schedule route interval (horizon / interval + 2) 0 node

/-- Fresh parents for a block from the node's tips. -/
def refreshTips (count : UInt32) (w : Clock × Node) :
    (Clock × Node) × Except Fault (List BlockId) :=
  let (node, tips) := w.2.requestTips count
  ((w.1, node), .ok tips.strong)

/-- Mines a block on a machine with the given number of cores, with parents from the node's tips. At
most `searches` searches are made, each as long as the settings allow. -/
def mineBlock (cores : UInt64) (searches : Nat) (cancelled : Bool) (block : Block) (node : Node)
    (c : Connection) : Node × SealPhase :=
  match c.cache.parameters with
  | .error fault => (node, .done block (.error fault))
  | .ok api =>
    let interval := c.settings.mining.refreshSeconds.toNat * 1000 * Clock.stepsPerMillisecond
    let miner := Miner.ofThreads (c.settings.mining.parallelism.threads cores)
    let env := clockedEnv miner interval (some (refreshTips c.settings.mining.tipsCount))
    let ((_, node), phase) := sealBlock env c.codec api block searches ({ cancelled }, node)
    (node, phase)

end Connection

end LedgerWatch
