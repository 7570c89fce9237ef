import LedgerWatch.Notifier.Signal

/-!
# Notifiers

Listeners wait for keys. Notifying a key signals every listener registered for it at that moment and
removes none; a listener is removed when its handle is dropped. A listener remembers that it was
signalled, so a notification that comes before anyone waits is not lost.

## Main definitions

- `Listener`: a handle
- `Notifier`: the listeners of each key and their signals
- `Notifier.listen`, `Notifier.notify`, `Notifier.notifyWhere`, `Notifier.drop`
- `Notifier.isTriggered`

## Design notes

The numbers of listeners are words of 64 bits that count the registrations. They are natural numbers
here, which is the same as long as fewer than `2 ^ 64` listeners are registered with a notifier.
-/

namespace LedgerWatch

/-- A handle on a registration. -/
structure Listener (κ : Type) where
  key : κ
  id : Nat
  deriving DecidableEq

/-- The registered listeners. -/
structure Notifier (κ : Type) where
  /-- The number of the next listener: how many were registered so far. -/
  next : Nat := 0
  /-- The keys that have listeners, each with the numbers of its listeners. -/
  table : List (κ × List Nat) := []
  /-- The signals of the listeners that have a handle. -/
  signals : List (Nat × Signal) := []

namespace Notifier

variable {κ : Type} [DecidableEq κ]

def empty : Notifier κ := {}

def listeners (key : κ) (n : Notifier κ) : List Nat :=
  (n.table.lookup key).getD []

def insertInto (key : κ) (id : Nat) : List (κ × List Nat) → List (κ × List Nat)
  | [] => [(key, [id])]
  | (k, ids) :: rest =>
    if k = key then (k, ids ++ [id]) :: rest else (k, ids) :: insertInto key id rest

/-- Removes a listener from the list of its key, and the key with its last listener. -/
def removeFrom (key : κ) (id : Nat) : List (κ × List Nat) → List (κ × List Nat)
  | [] => []
  | (k, ids) :: rest =>
    if k = key then
      let ids := ids.filter (· != id)
      if ids.isEmpty then rest else (k, ids) :: rest
    else (k, ids) :: removeFrom key id rest

def listen (key : κ) (n : Notifier κ) : Notifier κ × Listener κ :=
  ({ next := n.next + 1
     table := insertInto key n.next n.table
     signals := n.signals ++ [(n.next, {})] }, ⟨key, n.next⟩)

def modifySignal (id : Nat) (f : Signal → Signal) (n : Notifier κ) : Notifier κ :=
  { n with signals := n.signals.map fun (i, s) => if i = id then (i, f s) else (i, s) }

/-- Signals the given listeners, and tells how many they are. -/
def fire (ids : List Nat) (n : Notifier κ) : Notifier κ × Nat :=
  (ids.foldl (fun n id => n.modifySignal id Signal.fire) n, ids.length)

def notify (key : κ) (n : Notifier κ) : Notifier κ × Nat :=
  n.fire (n.listeners key)

/-- Signals the listeners of every key that satisfies a condition. -/
def notifyWhere (condition : κ → Bool) (n : Notifier κ) : Notifier κ × Nat :=
  n.fire ((n.table.filter fun entry => condition entry.1).flatMap (·.2))

def drop (listener : Listener κ) (n : Notifier κ) : Notifier κ :=
  { n with
    table := removeFrom listener.key listener.id n.table
    signals := n.signals.filter (·.1 != listener.id) }

def listenerCount (key : κ) (n : Notifier κ) : Nat := (n.listeners key).length

def keyCount (n : Notifier κ) : Nat := n.table.length

def signal (id : Nat) (n : Notifier κ) : Signal :=
  (n.signals.lookup id).getD {}

def isTriggered (listener : Listener κ) (n : Notifier κ) : Bool :=
  (n.signal listener.id).raised

/-- The notifier itself goes away. Handles keep their signals, which nothing raises any more. -/
def abandon (n : Notifier κ) : Notifier κ := { n with table := [] }

def toText (n : Notifier κ) : String :=
  "ValueNotifier \x7b keys: " ++ toString n.keyCount ++ " \x7d"

/-- The text form of a listener, given that of its key. -/
def listenerText (key : κ → String) (listener : Listener κ) (n : Notifier κ) : String :=
  "Listener \x7b key: " ++ key listener.key ++ ", triggered: " ++
    (if n.isTriggered listener then "true" else "false") ++ " \x7d"

end Notifier

end LedgerWatch
