import LedgerWatch.Rehearsal.Client.State

/-!
# Listeners in the background

A listener opens its feed, takes what waits in it, and ends or waits for more. Between two moves
every listener runs until it waits.

## Main definitions

- `State.start`: starts a listener
- `State.advance`: runs one until it waits
- `State.settle`: runs all of them
-/

namespace LedgerWatch.ClientRehearsal

/-- One of the node's feeds. -/
structure FeedOf (α : Type) where
  get : Node → Feed α
  set : Feed α → Node → Node

def statusFeed : FeedOf RawStatus := ⟨Node.statusFeed, fun feed n => { n with statusFeed := feed }⟩

def ledgerFeed : FeedOf LedgerRecord :=
  ⟨Node.ledgerFeed, fun feed n => { n with ledgerFeed := feed }⟩

def transactionFeed : FeedOf RawTransaction :=
  ⟨Node.transactionFeed, fun feed n => { n with transactionFeed := feed }⟩

def acceptedFeed : FeedOf BlockMetadata :=
  ⟨Node.acceptedFeed, fun feed n => { n with acceptedFeed := feed }⟩

def blockFeed : FeedOf BlockMessage := ⟨Node.blockFeed, fun feed n => { n with blockFeed := feed }⟩

namespace State

variable {α : Type}

def finish (id : Nat) (result : Except Fault Unit) (s : State) : State :=
  match s.tasks.lookup id with
  | none => s
  | some task =>
    { s with
      tasks := s.tasks.erase id
      report := { s.report with finished := s.report.finished ++ [(task.name, result)] } }

def isCancelled (id : Nat) (s : State) : Bool :=
  (s.tasks.lookup id).any (·.cancelled)

/-- Gives an item to the consumer of a listener, which acts by its plan. -/
def give (id : Nat) (delivery : Delivery) (s : State) : State × Except Fault Unit :=
  match s.tasks.lookup id with
  | none => (s, .ok ())
  | some task =>
    let (cancels, result) := task.plan.decide (task.seen + 1)
    let task := { task with seen := task.seen + 1, cancelled := task.cancelled || cancels }
    ({ s with
      tasks := s.tasks.update id fun _ => task
      report := { s.report with
        deliveries := s.report.deliveries ++ [(task.name, delivery)] } }, result)

/-- Gives a verified item to the consumer, or passes on why there is none. -/
def giveVerified (id : Nat) (delivery : Except Fault Delivery) (s : State) :
    State × Except Fault Unit :=
  match delivery with
  | .ok delivery => s.give id delivery
  | .error fault => (s, .error fault)

/-- Takes what waits in the feed of a listener. A listener that is over gives up the feed. -/
def drain (feedOf : FeedOf α) (id : Nat) (consumer : α → State → State × Except Fault Unit)
    (s : State) : State :=
  let feed := feedOf.get s.node
  match Feed.consume (isCancelled id) consumer feed.closed feed.waiting s with
  | (s, .waiting) => { s with node := feedOf.set { feed with waiting := [] } s.node }
  | (s, .finished result) => finish id result { s with node := feedOf.set feed.release s.node }

/-- Runs the hooks of an event of a connection: those that report it, and those of its watchers. -/
def fire (connection : Nat) (event : StatusEvent) (s : State) : State :=
  let s := if s.current == some connection then s.notice (.status event) else s
  { s with watchers := s.watchers.mapIdx fun i w =>
      if w.connection == connection && s.watcherLives i then
        { w with acceptance := w.acceptance.hear event }
      else w }

def consumeStatus (connection : Nat) (raw : RawStatus) (s : State) : State × Except Fault Unit :=
  match s.connections[connection]? with
  | none => (s, .ok ())
  | some c =>
    let (c, events) := c.receiveStatus raw
    let s := { s with connections := s.connections.set connection c }
    (events.foldl (fun s event => s.fire connection event) s, .ok ())

def consumeAccepted (watcher : Nat) (metadata : BlockMetadata) (s : State) :
    State × Except Fault Unit :=
  match s.watchers[watcher]? with
  | none => (s, .ok ())
  | some w =>
    let (acceptance, invocation) := w.acceptance.deliver metadata
    let s := (s.modifyWatcher watcher fun _ => acceptance).invoked invocation
    (if s.currentWatcher == some watcher then s.notice (.accepted metadata) else s, .ok ())

/-- A ledger record, for the assembler of the listener. -/
def consumeRecord (id : Nat) (connection : Nat) (record : LedgerRecord) (s : State) :
    State × Except Fault Unit :=
  match s.connections[connection]?, s.tasks.lookup id with
  | some c, some task =>
    match task.activity with
    | .ledger _ assembler =>
      let (assembler, result) := assembler.process c.codec c.cache.context record
      let task := { task with activity := .ledger connection assembler }
      let s := { s with tasks := s.tasks.update id fun _ => task }
      match result with
      | .error fault => (s, .error fault)
      | .ok none => (s, .ok ())
      | .ok (some update) => s.give id (.update update)
    | _ => (s, .ok ())
  | _, _ => (s, .ok ())

def consumeTransaction (id : Nat) (connection : Nat) (raw : RawTransaction) (s : State) :
    State × Except Fault Unit :=
  match s.connections[connection]? with
  | none => (s, .ok ())
  | some c => s.giveVerified id
    ((verifyTransaction c.codec c.cache.context raw).map .transaction)

def consumeBlock (id : Nat) (connection : Nat) (message : BlockMessage) (s : State) :
    State × Except Fault Unit :=
  match s.connections[connection]? with
  | none => (s, .ok ())
  | some c => s.giveVerified id
    ((c.checkBlock message.blockId.slot message.data).map (.block message.blockId))

def consumeCone (id : Nat) (items : List BlockMetadata) (s : State) : State :=
  match Feed.consume (isCancelled id) (fun metadata s => s.give id (.metadata metadata)) true
      (items.map .ok) s with
  | (s, .waiting) => s
  | (s, .finished result) => s.finish id result

/-- Runs a listener until it waits. -/
def advance (id : Nat) (s : State) : State :=
  match s.tasks.lookup id with
  | none => s
  | some task =>
    match task.activity with
    | .statuses c => s.drain statusFeed id (consumeStatus c)
    | .acceptances w => s.drain acceptedFeed id (consumeAccepted w)
    | .ledger c _ => s.drain ledgerFeed id (consumeRecord id c)
    | .transactions c => s.drain transactionFeed id (consumeTransaction id c)
    | .blocks c => s.drain blockFeed id (consumeBlock id c)
    | .cone items => s.consumeCone id items

/-- Runs every listener until it waits. No listener adds to another's feed, so once is enough. -/
def settle (s : State) : State :=
  (s.tasks.map (·.1)).foldl (fun s id => s.advance id) s

/-- Opens a feed for a listener, or ends the listener if the feed cannot be opened. -/
def openFeed (feedOf : FeedOf α) (id : Nat) (s : State) : State :=
  let (feed, opened) := (feedOf.get s.node).openOnce
  let s := { s with node := feedOf.set feed s.node }
  match opened with
  | .ok () => s
  | .error status => s.finish id (.error (.rpc status))

/-- What to listen to. -/
inductive Subject where
  | statuses
  | acceptedBlocks
  | ledger (range : SlotRange)
  | transactions
  | blocks
  | cone (slot : Slot)

/-- Starts a listener under the next number. -/
def enlist (task : Task) (s : State) : State :=
  { s with tasks := s.tasks.put s.started task, started := s.started + 1 }

/-- Starts a listener on the current connection or watcher. The node notes what was asked for even
if the feed cannot be opened. -/
def start (name : String) (subject : Subject) (plan : ConsumerPlan) (cancelled : Bool)
    (s : State) : State :=
  let id := s.started
  let enlist (activity : Activity) (s : State) := s.enlist { name, activity, plan, cancelled }
  match subject, s.current, s.connection? with
  | .acceptedBlocks, _, _ =>
    match s.currentWatcher with
    | none => s
    | some w => (enlist (.acceptances w) s).openFeed acceptedFeed id
  | _, none, _ | _, _, none => s
  | .statuses, some i, some c =>
    let node := { s.node with statusCooldown := some c.settings.statusCooldownMs }
    (enlist (.statuses i) { s with node }).openFeed statusFeed id
  | .ledger range, some i, some _ =>
    let node := { s.node with ledgerRange := some range }
    (enlist (.ledger i .idle) { s with node }).openFeed ledgerFeed id
  | .transactions, some i, some _ => (enlist (.transactions i) s).openFeed transactionFeed id
  | .blocks, some i, some _ => (enlist (.blocks i) s).openFeed blockFeed id
  | .cone slot, some _, some _ =>
    match s.node.readCone slot with
    | .error status => (enlist (.cone []) s).finish id (.error (.rpc status))
    | .ok items => enlist (.cone items) s

/-- Cancels the listeners of a name. -/
def stop (name : String) (s : State) : State :=
  { s with tasks := s.tasks.map fun (id, task) =>
      (id, { task with cancelled := task.cancelled || task.name == name }) }

end State

end LedgerWatch.ClientRehearsal
