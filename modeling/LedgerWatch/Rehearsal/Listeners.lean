import LedgerWatch.Notifier
import LedgerWatch.Table

/-!
# A rehearsal of notifiers

One notifier whose keys are numbers, with listeners and unfinished waits under names. A wait keeps
the handle it waits on, so a handle is dropped from the notifier once neither its name nor a wait
holds it.

## Main definitions

- `ListenerRehearsal.Move`, `ListenerRehearsal.step`
-/

namespace LedgerWatch.ListenerRehearsal

/-- A wait that has not returned yet. -/
structure PendingWait where
  listener : Listener UInt32
  waiter : Nat

/-- The notifier, its handles and the waits on them. -/
structure State where
  notifier : Notifier UInt32 := {}
  dropped : Bool := false
  handles : Table String (Listener UInt32) := []
  waits : Table String PendingWait := []

/-- Which keys are notified. -/
inductive KeyRule where
  | atMost (limit : UInt32)
  | atLeast (limit : UInt32)
  | even
  | nothing

def KeyRule.covers : KeyRule → UInt32 → Bool
  | atMost limit, key => key ≤ limit
  | atLeast limit, key => limit ≤ key
  | even, key => key % 2 == 0
  | nothing, _ => false

/-- What happens next. -/
inductive Move where
  | listen (name : String) (key : UInt32)
  | notify (key : UInt32)
  | notifyWhere (rule : KeyRule)
  | count (key : UInt32)
  | inspect (name : String)
  | wait (name : String)
  | beginWait (name as : String)
  | pollWait (as : String)
  | drop (name : String)
  | dropNotifier

/-- The answer to a move. -/
inductive Reply where
  | nothing
  | holds (b : Bool)
  | signalled (n : Nat)
  | listeners (n : Nat)
  | listener (key : UInt32) (triggered : Bool) (text : String)

def isHeld (listener : Listener UInt32) (s : State) : Bool :=
  s.handles.any (·.2 == listener) || s.waits.any (·.2.listener == listener)

/-- Drops a handle from the notifier unless it is still held. -/
def letGo (listener : Listener UInt32) (s : State) : State :=
  if isHeld listener s then s else { s with notifier := s.notifier.drop listener }

def dropName (name : String) (s : State) : State × Bool :=
  match s.handles.lookup name with
  | none => (s, false)
  | some listener => (letGo listener { s with handles := s.handles.erase name }, true)

/-- Registers a listener and then gives up the one that was under the name. -/
def listen (name : String) (key : UInt32) (s : State) : State :=
  let (notifier, listener) := s.notifier.listen key
  let (s, _) := dropName name { s with notifier }
  { s with handles := s.handles.put name listener }

/-- Begins a wait and polls it once. -/
def beginWait (listener : Listener UInt32) (s : State) : State × Nat × Bool :=
  let (signal, waiter) := (s.notifier.signal listener.id).join
  let signal := signal.poll waiter
  ({ s with notifier := s.notifier.modifySignal listener.id fun _ => signal }, waiter,
    signal.isReturned waiter)

/-- Puts an unfinished wait under a name and gives up the one that was there. -/
def keepWait (as : String) (wait : PendingWait) (s : State) : State :=
  let kept := { s with waits := s.waits.put as wait }
  match s.waits.lookup as with
  | none => kept
  | some old => letGo old.listener kept

/-- Polls an unfinished wait. One that returns is over and gives up its handle. -/
def pollWait (as : String) (s : State) : State × Reply :=
  match s.waits.lookup as with
  | none => (s, .nothing)
  | some pending =>
    let signal := (s.notifier.signal pending.listener.id).poll pending.waiter
    let s := { s with
      notifier := s.notifier.modifySignal pending.listener.id fun _ => signal }
    if signal.isReturned pending.waiter then
      (letGo pending.listener { s with waits := s.waits.erase as }, .holds true)
    else (s, .holds false)

/-- One move. Handles and waits outlive the notifier. -/
def step (move : Move) (s : State) : State × Reply :=
  match move with
  | .listen name key => if s.dropped then (s, .nothing) else (listen name key s, .nothing)
  | .notify key =>
    if s.dropped then (s, .nothing)
    else
      let (notifier, n) := s.notifier.notify key
      ({ s with notifier }, .signalled n)
  | .notifyWhere rule =>
    if s.dropped then (s, .nothing)
    else
      let (notifier, n) := s.notifier.notifyWhere rule.covers
      ({ s with notifier }, .signalled n)
  | .count key =>
    if s.dropped then (s, .nothing) else (s, .listeners (s.notifier.listenerCount key))
  | .inspect name =>
    match s.handles.lookup name with
    | none => (s, .nothing)
    | some listener =>
      (s, .listener listener.key (s.notifier.isTriggered listener)
        (s.notifier.listenerText (fun key => toString key.toNat) listener))
  | .wait name =>
    match s.handles.lookup name with
    | none => (s, .nothing)
    | some listener =>
      let (s, _, returned) := beginWait listener s
      (s, .holds returned)
  | .beginWait name as =>
    match s.handles.lookup name with
    | none => (s, .nothing)
    | some listener =>
      let (s, waiter, returned) := beginWait listener s
      if returned then (s, .holds true) else (keepWait as ⟨listener, waiter⟩ s, .holds false)
  | .pollWait as => pollWait as s
  | .drop name =>
    let (s, existed) := dropName name s
    (s, .holds existed)
  | .dropNotifier => ({ s with dropped := true, notifier := s.notifier.abandon }, .nothing)

end LedgerWatch.ListenerRehearsal
