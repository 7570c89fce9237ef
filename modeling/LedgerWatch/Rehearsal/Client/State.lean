import LedgerWatch.Connection
import LedgerWatch.Rehearsal.Consumer

/-!
# The state of a client's rehearsal

A client talks to one node. It may connect several times and set up several watchers for
acceptance, of which the last ones are current. It runs listeners in the background, each under a
number of its own and under a name, which several of them may share.

A connection that is no longer current lives on for the listeners that use it, and so does a watcher
for a listener that runs on it. What events report is what the hooks of the current ones see.

## Main definitions

- `Handle`, `Watcher`, `Task`: what the client holds
- `Report`: what has happened during a move
- `State`, with `State.connection?` and `State.watcher?` for the current ones
-/

namespace LedgerWatch.ClientRehearsal

/-- A registry of those who wait for acceptance, on a connection. -/
structure Watcher where
  connection : Nat
  acceptance : Acceptance String := {}

/-- What a handle listens for. -/
inductive HandleTarget where
  | block (listener : Listener BlockId)
  | slot (listener : Listener Slot)

/-- A listener's handle and the watcher it belongs to. -/
structure Handle where
  watcher : Nat
  target : HandleTarget
  /-- Whether it has been reported as signalled. -/
  reported : Bool := false

/-- What a listener in the background does. -/
inductive Activity where
  | statuses (connection : Nat)
  | acceptances (watcher : Nat)
  | ledger (connection : Nat) (assembler : Assembler)
  | transactions (connection : Nat)
  | blocks (connection : Nat)
  | cone (items : List BlockMetadata)

/-- A listener in the background. -/
structure Task where
  name : String
  activity : Activity
  plan : ConsumerPlan
  cancelled : Bool
  /-- How many items its consumer has been given. -/
  seen : Nat := 0

/-- What a listener gives to its consumer. -/
inductive Delivery where
  | update (update : LedgerUpdate)
  | transaction (transaction : AcceptedTransaction)
  | block (id : BlockId) (block : Block)
  | metadata (metadata : BlockMetadata)

/-- What the hooks of the current connection and watcher see. -/
inductive Notice where
  | status (event : StatusEvent)
  | accepted (metadata : BlockMetadata)

/-- What has happened during a move, in order. -/
structure Report where
  notices : List Notice := []
  invocations : List (Invocation String) := []
  deliveries : List (String × Delivery) := []
  finished : List (String × Except Fault Unit) := []
  /-- The names of the handles that were signalled, sorted. -/
  signalled : List String := []

/-- The node, the client and what has happened during the move. -/
structure State where
  codec : Codec
  node : Node := {}
  connections : List Connection := []
  current : Option Nat := none
  watchers : List Watcher := []
  currentWatcher : Option Nat := none
  handles : Table String Handle := []
  /-- The listeners that run, under their numbers. -/
  tasks : Table Nat Task := []
  /-- How many listeners have been started. -/
  started : Nat := 0
  report : Report := {}

namespace State

def connection? (s : State) : Option Connection :=
  s.current.bind fun i => s.connections[i]?

def watcher? (s : State) : Option (Nat × Watcher) :=
  s.currentWatcher.bind fun i => s.watchers[i]?.map (i, ·)

def modifyWatcher (i : Nat) (f : Acceptance String → Acceptance String) (s : State) : State :=
  { s with watchers := s.watchers.modify i fun w => { w with acceptance := f w.acceptance } }

/-- Whether a watcher is in use: it is the current one, or a listener runs on it. -/
def watcherLives (i : Nat) (s : State) : Bool :=
  s.currentWatcher == some i || s.tasks.any fun (_, task) =>
    match task.activity with
    | .acceptances j => i == j
    | _ => false

/-- Reports what hooks see. -/
def notice (n : Notice) (s : State) : State :=
  { s with report := { s.report with notices := s.report.notices ++ [n] } }

def invoked (invocation : Option (Invocation String)) (s : State) : State :=
  { s with report := { s.report with
      invocations := s.report.invocations ++ invocation.toList } }

def isSignalled (handle : Handle) (s : State) : Bool :=
  match s.watchers[handle.watcher]? with
  | none => false
  | some w =>
    match handle.target with
    | .block listener => w.acceptance.blockListeners.isTriggered listener
    | .slot listener => w.acceptance.slotListeners.isTriggered listener

def dropHandle (handle : Handle) (s : State) : State :=
  s.modifyWatcher handle.watcher fun a =>
    match handle.target with
    | .block listener => a.dropListener listener
    | .slot listener => a.dropSlotListener listener

/-- Puts a handle under a name and drops the one that was there. -/
def keepHandle (name : String) (handle : Handle) (s : State) : State :=
  let s := match s.handles.lookup name with
    | some old => s.dropHandle old
    | none => s
  { s with handles := s.handles.put name handle }

/-- Reports the handles that have been signalled since the last report. -/
def reportSignals (s : State) : State :=
  let fresh := s.handles.filter fun (_, handle) => !handle.reported && s.isSignalled handle
  { s with
    handles := s.handles.map fun (name, handle) =>
      (name, { handle with reported := handle.reported || s.isSignalled handle })
    report := { s.report with signalled := (fresh.map (·.1)).mergeSort } }

end State

end LedgerWatch.ClientRehearsal
