import LedgerWatch.Event
import LedgerWatch.Table

/-!
# A rehearsal of events

One event, with hooks and subscriptions under names. A hook notes that it ran and may then register
and drop hooks and trigger the event again.

## Main definitions

- `EventRehearsal.HookScript`: what a hook does
- `EventRehearsal.State`: the event, the handles and the hooks that ran
- `EventRehearsal.trigger`: triggers the event
- `EventRehearsal.step`: one move
-/

namespace LedgerWatch.EventRehearsal

/-- What a hook does when it runs, after noting its name. -/
structure HookScript where
  name : String
  /-- Registers a hook that does nothing further, in place of the one under the name. -/
  register : Option String := none
  /-- Drops the handle under the name. -/
  unhook : Option String := none
  /-- Triggers the event with the next value, while the value is below this one. -/
  retriggerBelow : Option UInt32 := none

/-- The event, the handles and what ran. -/
structure State where
  event : Event HookScript UInt32
  dropped : Bool := false
  hooks : Table String Nat := []
  subscriptions : Table String Nat := []
  /-- The hooks that ran and the values they ran on, oldest first. -/
  ran : List (String × UInt32) := []

def unhook (name : String) (s : State) : State :=
  match s.hooks.lookup name with
  | none => s
  | some id =>
    { s with
      event := { s.event with hooks := s.event.hooks.drop id }
      hooks := s.hooks.erase name }

/-- Registers a hook and then drops the one that was under its name. -/
def register (script : HookScript) (s : State) : State × Nat :=
  let (hooks, id) := s.event.hooks.register script
  let s := unhook script.name { s with event := { s.event with hooks } }
  ({ s with hooks := s.hooks.put script.name id }, id)

/-- What a hook does when it runs, given how to trigger the event again. -/
def runHook (again : UInt32 → State → State) (script : HookScript) (value : UInt32) (s : State) :
    State :=
  let s := { s with ran := s.ran ++ [(script.name, value)] }
  let s := match script.register with
    | some name => (register { name } s).1
    | none => s
  let s := match script.unhook with
    | some name => unhook name s
    | none => s
  match script.retriggerBelow with
  | some bound => if value < bound then again (value + 1) s else s
  | none => s

/-- Triggers the event, with triggers inside triggers up to a depth. -/
def triggerWithin : (depth : Nat) → UInt32 → State → State × Nat
  | 0, _, s => (s, 0)
  | depth + 1, value, s =>
    Event.trigger (runHook fun value s => (triggerWithin depth value s).1) State.event
      (fun event s => { s with event }) value s

/-- The depth that triggering with a value needs. Hooks trigger again only with greater values, and
only up to the greatest bound of a hook that is registered now, as those registered meanwhile do not
trigger again. -/
def depth (value : UInt32) (s : State) : Nat :=
  let bounds := s.event.hooks.entries.filterMap fun hook => hook.2.retriggerBelow
  bounds.foldl (fun deepest bound => max deepest (bound.toNat - value.toNat)) 0 + 1

def trigger (value : UInt32) (s : State) : State × Nat :=
  triggerWithin (depth value s) value s

/-- Triggers the event with `n` values from the first on, and adds up the answers. -/
def triggerRange : (n : Nat) → UInt32 → State → State × Nat
  | 0, _, s => (s, 0)
  | n + 1, first, s =>
    let (s, reached) := trigger first s
    let (s, total) := triggerRange n (first + 1) s
    (s, reached + total)

/-- What happens next. -/
inductive Move where
  | hook (script : HookScript)
  | unhook (name : String)
  | subscribe (name : String)
  | unsubscribe (name : String)
  | trigger (value : UInt32)
  | triggerRange (first last : UInt32)
  | receive (name : String)
  | dropEvent
  | describe

/-- The answer to a move. -/
inductive Reply where
  | nothing
  | text (s : String)
  | existed (b : Bool)
  | count (n : Nat)
  | received (r : Received UInt32)

def unsubscribe (name : String) (s : State) : State × Bool :=
  match s.subscriptions.lookup name with
  | none => (s, false)
  | some id =>
    ({ s with
      event := { s.event with channel := s.event.channel.unsubscribe id }
      subscriptions := s.subscriptions.erase name }, true)

/-- Subscribes, and then ends the subscription that was under the name. -/
def subscribe (name : String) (s : State) : State :=
  let (channel, id) := s.event.channel.subscribe
  let (s, _) := unsubscribe name { s with event := { s.event with channel } }
  { s with subscriptions := s.subscriptions.put name id }

def stepAlive (move : Move) (s : State) : State × Reply :=
  match move with
  | .hook script =>
    let (s, id) := register script s
    (s, .text (hookText id))
  | .subscribe name => (subscribe name s, .nothing)
  | .trigger value =>
    let (s, reached) := trigger value s
    (s, .count reached)
  | .triggerRange first last =>
    let (s, total) := triggerRange (last.toNat - first.toNat) first s
    (s, .count total)
  | .dropEvent =>
    ({ s with dropped := true, event := s.event.close }, .nothing)
  | .describe => (s, .text s.event.toText)
  | .unhook _ | .unsubscribe _ | .receive _ => (s, .nothing)

/-- One move. Handles and subscriptions outlive the event. -/
def step (move : Move) (s : State) : State × Reply :=
  let s := { s with ran := [] }
  match move with
  | .unhook name => (unhook name s, .existed (s.hooks.lookup name).isSome)
  | .unsubscribe name =>
    let (s, existed) := unsubscribe name s
    (s, .existed existed)
  | .receive name =>
    match s.subscriptions.lookup name with
    | none => (s, .nothing)
    | some id =>
      let (channel, received) := s.event.channel.receive id
      ({ s with event := { s.event with channel } }, .received received)
  | move => if s.dropped then (s, .nothing) else stepAlive move s

end LedgerWatch.EventRehearsal
