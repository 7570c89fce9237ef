/-!
# Broadcast channels

A channel hands every payload to every subscription made before it was sent. It keeps a bounded
number of payloads, and a subscription that falls further behind goes on with the oldest one kept.

## Main definitions

- `Broadcast`: the channel and the positions of its subscriptions
- `Broadcast.subscribe`, `Broadcast.unsubscribe`, `Broadcast.send`, `Broadcast.receive`

## Design notes

Positions count the payloads ever sent. A payload is sent only while there is a subscription, so a
position is also the number of payloads that a subscription has been offered or has missed.
-/

namespace LedgerWatch

/-- A bounded channel of payloads. -/
structure Broadcast (α : Type) where
  /-- How many payloads are kept at most. -/
  capacity : Nat
  /-- How many payloads were ever sent. -/
  sent : Nat := 0
  /-- The last payloads sent, oldest first. -/
  kept : List α := []
  /-- The position of the next payload of each subscription. -/
  cursors : List (Nat × Nat) := []
  /-- The name of the next subscription. -/
  nextSubscription : Nat := 0
  closed : Bool := false

/-- What a subscription receives. -/
inductive Received (α : Type) where
  | payload (a : α)
  /-- Nothing has arrived since the last payload received. -/
  | pending
  /-- Nothing will arrive any more. -/
  | closed
  deriving DecidableEq

namespace Broadcast

variable {α : Type}

/-- How many payloads are kept when some number of them is wanted: the least power of two that is
no smaller than that number. -/
def roomFor (wanted : Nat) : Nat :=
  if wanted ≤ 1 then 1 else Nat.pow 2 ((wanted - 1).log2 + 1)

/-- An empty channel that keeps at least the wanted number of payloads, and at least one. -/
def ofCapacity (wanted : Nat) : Broadcast α := { capacity := roomFor wanted }

def subscriptions (c : Broadcast α) : Nat := c.cursors.length

/-- The position of the oldest payload kept. -/
def oldest (c : Broadcast α) : Nat := c.sent - c.kept.length

/-- A subscription starts after all payloads sent so far. -/
def subscribe (c : Broadcast α) : Broadcast α × Nat :=
  ({ c with
    cursors := c.cursors ++ [(c.nextSubscription, c.sent)]
    nextSubscription := c.nextSubscription + 1 }, c.nextSubscription)

def unsubscribe (id : Nat) (c : Broadcast α) : Broadcast α :=
  { c with cursors := c.cursors.filter (·.1 != id) }

/-- Sends a payload if there is a subscription, and tells how many there are. -/
def send (a : α) (c : Broadcast α) : Broadcast α × Nat :=
  if c.cursors.isEmpty then (c, 0)
  else
    let kept := c.kept ++ [a]
    ({ c with sent := c.sent + 1, kept := kept.drop (kept.length - c.capacity) }, c.subscriptions)

/-- Nothing can be sent any more. What is kept can still be received. -/
def close (c : Broadcast α) : Broadcast α := { c with closed := true }

/-- What a subscription at a position receives, and its position afterwards. -/
def receiveAt (position : Nat) (c : Broadcast α) : Received α × Nat :=
  let position := max position c.oldest
  match c.kept[position - c.oldest]? with
  | some a => (.payload a, position + 1)
  | none => (if c.closed then .closed else .pending, position)

def receive (id : Nat) (c : Broadcast α) : Broadcast α × Received α :=
  match c.cursors.lookup id with
  | none => (c, .closed)
  | some position =>
    let (received, position) := c.receiveAt position
    ({ c with cursors := c.cursors.map fun (i, p) => if i = id then (i, position) else (i, p) },
      received)

end Broadcast

end LedgerWatch
