import LedgerWatch.Rehearsal.Client.Task

/-!
# The moves of a client's rehearsal

A move changes the node, makes a call on the current connection, or registers with the current
watcher. After it, all listeners run until they wait and the handles signalled meanwhile are
reported.

## Main definitions

- `NodeMove`, `CallMove`, `WatchMove`, `Move`: the moves
- `Reply`: their answers
- `step`: one move
-/

namespace LedgerWatch.ClientRehearsal

/-- The streams of the node. -/
inductive StreamName where
  | statuses
  | ledger
  | transactions
  | acceptedBlocks
  | blocks

/-- Items for a stream, each of which may be a failure of the stream. -/
inductive StreamItems where
  | statuses (items : List (Except RpcStatus RawStatus))
  | ledger (items : List (Except RpcStatus LedgerRecord))
  | transactions (items : List (Except RpcStatus RawTransaction))
  | acceptedBlocks (items : List (Except RpcStatus BlockMetadata))
  | blocks (items : List (Except RpcStatus BlockMessage))

/-- A change of the node, or a look at it. -/
inductive NodeMove where
  | setStatus (status : RawStatus)
  | insertMetadata (metadata : BlockMetadata)
  | setMetadataFailure (status : Option RpcStatus)
  | insertBlock (id : BlockId) (data : Bytes)
  | setCone (slot : Slot) (cone : List BlockMetadata)
  | insertTransaction (metadata : TransactionMetadata)
  | grant (query : AccountQuery) (role : AccountRole)
  | insertOutput (id : OutputId) (report : OutputReport)
  | insertCommitment (commitment : RawCommitment)
  | setTips (tips : Tips)
  | addRoute (route : String)
  | submitted
  | registeredRoutes
  | counters
  | push (items : StreamItems)
  | close (stream : StreamName)
  | failOpen (stream : StreamName) (status : RpcStatus)
  | isOpened (stream : StreamName)

/-- What is set otherwise than usual when connecting. -/
structure ConnectOptions where
  targetNetwork : Option String := none
  statusCooldownMs : Option UInt32 := none
  retryIntervalMs : Option UInt64 := none
  tipsCount : Option UInt32 := none

/-- A call on the current connection. -/
inductive CallMove where
  | state
  | apiForSlot (slot : Slot)
  | routes
  | submitBlock (block : Block)
  | blockMetadata (id : BlockId)
  | block (id : BlockId)
  | transactionMetadata (id : TransactionId)
  | account (query : AccountQuery)
  | output (id : OutputId)
  | commitment (query : CommitmentQuery)
  | requestTips (count : UInt32)
  | registerRoute (route address path : String)
  | unregisterRoute (route : String)
  | mineBlock (block : Block) (cancelled : Bool)
  | waitForRoute (route : String) (cancelled : Bool) (schedule : Connection.RouteSchedule)

/-- A registration with the current watcher. -/
inductive WatchMove where
  | callback (name : String) (block : BlockId)
  | listener (name : String) (block : BlockId) (dropOnError : Bool)
  | slot (name : String) (slot : Slot)
  | drop (name : String)
  | withdraw (block : BlockId)
  | clear

/-- What happens next. -/
inductive Move where
  | node (move : NodeMove)
  | connect (options : ConnectOptions)
  | call (move : CallMove)
  | start (name : String) (subject : State.Subject) (plan : ConsumerPlan) (cancelled : Bool)
  | stop (name : String)
  | newWatcher
  | watch (move : WatchMove)

/-- The answer to a registration. -/
inductive WatchReply where
  | nothing
  | existed (b : Bool)
  | done (result : Except Fault Unit)
  /-- The query of a listener failed; the listener is handed back in any case. -/
  | listened (result : Except Fault Unit)

/-- The answer to a move. -/
inductive Reply where
  | nothing
  | done (result : Except Fault Unit)
  | flag (b : Bool)
  | flags (bs : List Bool)
  | payloads (payloads : List Bytes)
  | apiRoutes (routes : List ApiRoute)
  | node (node : Node)
  | connection (c : Connection)
  | parameters (result : Except Fault Parameters)
  | routes (routes : List String)
  | blockId (result : Except Fault BlockId)
  | blockMetadata (result : Except Fault BlockMetadata)
  | block (result : Except Fault Block)
  | transactionMetadata (result : Except Fault TransactionMetadata)
  | roles (candidate committeeMember validator : Bool)
  | output (result : Except Fault VerifiedOutput)
  | commitment (result : Except Fault Commitment)
  | tips (tips : Tips)
  | mined (phase : SealPhase)
  | waited (result : Except Fault Unit) (reads : Nat)
  | watched (reply : WatchReply) (pending : Nat)

variable {α : Type}

def pushAll (items : List (Except RpcStatus α)) (feed : Feed α) : Feed α × List Bool :=
  match items with
  | [] => (feed, [])
  | item :: rest =>
    let (feed, received) := feed.push item
    let (feed, others) := pushAll rest feed
    (feed, received :: others)

def pushInto (feedOf : FeedOf α) (items : List (Except RpcStatus α)) (node : Node) : Node × Reply :=
  let (feed, received) := pushAll items (feedOf.get node)
  (feedOf.set feed node, .flags received)

/-- Changes one of the node's feeds, whatever its items are. -/
def modifyFeed (stream : StreamName) (f : {α : Type} → Feed α → Feed α) (node : Node) : Node :=
  match stream with
  | .statuses => { node with statusFeed := f node.statusFeed }
  | .ledger => { node with ledgerFeed := f node.ledgerFeed }
  | .transactions => { node with transactionFeed := f node.transactionFeed }
  | .acceptedBlocks => { node with acceptedFeed := f node.acceptedFeed }
  | .blocks => { node with blockFeed := f node.blockFeed }

/-- Whether one of the node's feeds has been opened. -/
def feedOpened (stream : StreamName) (node : Node) : Bool :=
  match stream with
  | .statuses => node.statusFeed.isOpened
  | .ledger => node.ledgerFeed.isOpened
  | .transactions => node.transactionFeed.isOpened
  | .acceptedBlocks => node.acceptedFeed.isOpened
  | .blocks => node.blockFeed.isOpened

def stepNode (move : NodeMove) (node : Node) : Node × Reply :=
  match move with
  | .setStatus status => ({ node with status := some status }, .nothing)
  | .insertMetadata metadata =>
    ({ node with metadata := node.metadata.put metadata.blockId metadata }, .nothing)
  | .setMetadataFailure status => ({ node with metadataFailure := status }, .nothing)
  | .insertBlock id data => ({ node with blocks := node.blocks.put id data }, .nothing)
  | .setCone slot cone => ({ node with cones := node.cones.put slot cone }, .nothing)
  | .insertTransaction metadata =>
    ({ node with transactions := node.transactions.put metadata.transactionId metadata }, .nothing)
  | .grant query role => ({ node with roles := (query, role) :: node.roles }, .nothing)
  | .insertOutput id report => ({ node with outputs := node.outputs.put id report }, .nothing)
  | .insertCommitment commitment =>
    ({ node with commitments := node.commitments ++ [commitment] }, .nothing)
  | .setTips tips => ({ node with tips }, .nothing)
  | .addRoute route => ({ node with routes := node.routes ++ [route] }, .nothing)
  | .submitted => (node, .payloads node.submitted)
  | .registeredRoutes => (node, .apiRoutes node.registeredRoutes)
  | .counters => (node, .node node)
  | .push (.statuses items) => pushInto statusFeed items node
  | .push (.ledger items) => pushInto ledgerFeed items node
  | .push (.transactions items) => pushInto transactionFeed items node
  | .push (.acceptedBlocks items) => pushInto acceptedFeed items node
  | .push (.blocks items) => pushInto blockFeed items node
  | .close stream => (modifyFeed stream (fun feed => feed.close) node, .nothing)
  | .failOpen stream status => (modifyFeed stream (fun feed => feed.failOpen status) node, .nothing)
  | .isOpened stream => (node, .flag (feedOpened stream node))

/-- The settings of a connection in a rehearsal: brisk, but with parents that stay fresh. -/
def ConnectOptions.settings (options : ConnectOptions) : ConnectionSettings :=
  let brisk := ConnectionSettings.brisk
  { brisk with
    targetNetwork := options.targetNetwork
    statusCooldownMs := options.statusCooldownMs.getD brisk.statusCooldownMs
    retryIntervalMs := options.retryIntervalMs.getD brisk.retryIntervalMs
    mining := { brisk.mining with
      refreshSeconds := 3600
      tipsCount := options.tipsCount.getD brisk.mining.tipsCount } }

/-- Connects. A failure leaves the earlier connection current. -/
def connect (options : ConnectOptions) (s : State) : State × Reply :=
  match Connection.connect s.codec options.settings s.node with
  | .error fault => (s, .done (.error fault))
  | .ok c =>
    ({ s with connections := s.connections ++ [c], current := some s.connections.length },
      .done (.ok ()))

/-- How many searches a block is given. Parents stay fresh for longer than a search takes. -/
def searchesPerBlock : Nat := 4

def stepCall (move : CallMove) (c : Connection) (node : Node) : Node × Reply :=
  match move with
  | .state => (node, .connection c)
  | .apiForSlot slot => (node, .parameters (c.cache.apiForSlot slot))
  | .routes =>
    let (node, routes) := node.readRoutes
    (node, .routes routes)
  | .submitBlock block =>
    let (node, result) := c.submitBlock block node
    (node, .blockId result)
  | .blockMetadata id =>
    let (node, result) := Connection.blockMetadata id node
    (node, .blockMetadata result)
  | .block id => (node, .block (c.block id node))
  | .transactionMetadata id =>
    (node, .transactionMetadata (Connection.transactionMetadata id node))
  | .account query =>
    (node, .roles (node.hasRole query .candidate) (node.hasRole query .committeeMember)
      (node.hasRole query .validator))
  | .output id => (node, .output (c.output id node))
  | .commitment query => (node, .commitment (c.commitment query node))
  | .requestTips count =>
    let (node, tips) := node.requestTips count
    (node, .tips tips)
  | .registerRoute route address path =>
    let (node, result) := Connection.registerRoute route address path node
    (node, .done result)
  | .unregisterRoute route => (node.unregisterRoute route, .done (.ok ()))
  | .mineBlock block cancelled =>
    let (node, phase) := c.mineBlock 1 searchesPerBlock cancelled block node
    (node, .mined phase)
  | .waitForRoute route cancelled schedule =>
    let (after, result) := c.waitForRoute route cancelled schedule node
    (after, .waited result (after.routeReads - node.routeReads))

/-- A registration with a watcher. The two moments of a registration follow each other at once, with
the node's answer in between. -/
def stepWatch (move : WatchMove) (i : Nat) (w : Watcher) (s : State) : State × WatchReply :=
  match move with
  | .callback name block =>
    match w.acceptance.enterCallback block name with
    | (_, .error fault) => (s, .done (.error fault))
    | (acceptance, .ok ()) =>
      let (node, answer) := s.node.readMetadata block
      let (acceptance, invocation, result) := acceptance.answerCallback answer
      ((({ s with node }).modifyWatcher i fun _ => acceptance).invoked invocation, .done result)
  | .listener name block dropOnError =>
    let (acceptance, listener) := w.acceptance.enterListener block
    let (node, answer) := s.node.readMetadata block
    let (acceptance, result) := acceptance.answerListener block answer
    let s := ({ s with node }).modifyWatcher i fun _ => acceptance
    let handle : Handle := ⟨i, .block listener, false⟩
    match result with
    | .ok () => (s.keepHandle name handle, .listened (.ok ()))
    | .error fault =>
      (if dropOnError then s.dropHandle handle else s.keepHandle name handle,
        .listened (.error fault))
  | .slot name slot =>
    let (acceptance, listener) := w.acceptance.enterSlotListener slot
    let finalized := s.connections[w.connection]?.bind fun c => c.cache.finalized
    let s := s.modifyWatcher i fun _ => acceptance.checkSlot slot finalized
    (s.keepHandle name ⟨i, .slot listener, false⟩, .done (.ok ()))
  | .drop name =>
    match s.handles.lookup name with
    | none => (s, .existed false)
    | some handle => ({ s.dropHandle handle with handles := s.handles.erase name }, .existed true)
  | .withdraw block =>
    let (acceptance, existed) := w.acceptance.withdraw block
    (s.modifyWatcher i fun _ => acceptance, .existed existed)
  | .clear => (s.modifyWatcher i fun a => a.clear, .nothing)

/-- A move, before the listeners run. Moves that need a connection or a watcher do nothing without
one. -/
def act (move : Move) (s : State) : State × Reply :=
  match move with
  | .node move =>
    let (node, reply) := stepNode move s.node
    ({ s with node }, reply)
  | .connect options => connect options s
  | .call move =>
    match s.connection? with
    | none => (s, .nothing)
    | some c =>
      let (node, reply) := stepCall move c s.node
      ({ s with node }, reply)
  | .start name subject plan cancelled => (s.start name subject plan cancelled, .nothing)
  | .stop name => (s.stop name, .nothing)
  | .newWatcher =>
    match s.current with
    | none => (s, .nothing)
    | some connection =>
      ({ s with
        watchers := s.watchers ++ [{ connection }]
        currentWatcher := some s.watchers.length }, .nothing)
  | .watch move =>
    match s.watcher? with
    | none => (s, .nothing)
    | some (i, w) =>
      let (s, reply) := stepWatch move i w s
      (s, .watched reply ((s.watchers[i]?.map (·.acceptance.pending)).getD 0))

/-- One move, and everything that runs in the background after it. -/
def step (move : Move) (s : State) : State × Reply :=
  let (s, reply) := act move { s with report := {} }
  (s.settle.reportSignals, reply)

end LedgerWatch.ClientRehearsal
