import LedgerWatch.Event.Broadcast

/-!
# Events

An event has hooks, which run one after the other while it is triggered, and subscriptions, which
receive its payloads later. A hook may register and drop hooks of the event it runs for, so a
trigger runs the hooks that were registered when it began.

## Main definitions

- `Hooks`: the registered hooks, in the order of their registration
- `Event`: hooks and a broadcast channel
- `Event.trigger`: runs the hooks, then sends the payload

## Design notes

The numbers of hooks are words of 64 bits that count the registrations. They are natural numbers
here, which is the same as long as fewer than `2 ^ 64` hooks are registered with an event.
-/

namespace LedgerWatch

/-- The hooks of an event under their numbers, oldest first. Numbers are never used again. -/
structure Hooks (β : Type) where
  /-- The number of the next hook: how many were registered so far. -/
  next : Nat := 0
  entries : List (Nat × β) := []

namespace Hooks

variable {β : Type}

/-- Registers a hook after all others. -/
def register (body : β) (hooks : Hooks β) : Hooks β × Nat :=
  ({ next := hooks.next + 1, entries := hooks.entries ++ [(hooks.next, body)] }, hooks.next)

def drop (id : Nat) (hooks : Hooks β) : Hooks β :=
  { hooks with entries := hooks.entries.filter (·.1 != id) }

end Hooks

def hookText (id : Nat) : String :=
  "Hook \x7b id: " ++ toString id ++ " \x7d"

/-- An event with hooks of type `β` and payloads of type `α`. -/
structure Event (β α : Type) where
  hooks : Hooks β := {}
  channel : Broadcast α

namespace Event

variable {β α σ : Type}

/-- The number of payloads an event keeps unless told otherwise. -/
def defaultCapacity : Nat := 1000

/-- An event without hooks and subscriptions. -/
def ofCapacity (wanted : Nat) : Event β α := { channel := .ofCapacity wanted }

def toText (event : Event β α) : String :=
  "Event \x7b hooks: " ++ toString event.hooks.entries.length ++
    ", subscribers: " ++ toString event.channel.subscriptions ++ " \x7d"

def send (a : α) (event : Event β α) : Event β α × Nat :=
  let (channel, receivers) := event.channel.send a
  ({ event with channel }, receivers)

/-- The event goes away: its hooks are gone, and its subscriptions receive what is left. -/
def close (event : Event β α) : Event β α :=
  { hooks := { event.hooks with entries := [] }, channel := event.channel.close }

/-- Triggers the event that is part of a state: runs the hooks registered now, in order, each on
the state the one before left behind, and then sends the payload. The answer is the number of those
hooks and of the subscriptions reached. -/
def trigger (run : β → α → σ → σ) (get : σ → Event β α) (set : Event β α → σ → σ)
    (a : α) (s : σ) : σ × Nat :=
  let hooks := (get s).hooks.entries
  let s := hooks.foldl (fun s hook => run hook.2 a s) s
  let (event, receivers) := (get s).send a
  (set event s, hooks.length + receivers)

end Event

end LedgerWatch
