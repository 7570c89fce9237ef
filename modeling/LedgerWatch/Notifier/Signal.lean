/-!
# One-shot signals

A signal is raised once and for good, and any number of waits sleep until then. Raising it takes two
steps, setting the mark and waking the sleepers, and a wait takes several: it arms itself, looks at
the mark, and goes to sleep if the mark was not set. Because it arms itself before it looks, a
wake-up that falls between the look and the sleep is not lost.

## Main definitions

- `Waiter`: where a wait stands
- `Signal`: the mark, the wake-ups still to come and the waits
- `Signal.raise`, `Signal.wake`, `Signal.join`, `Signal.advance`: the steps
- `Signal.fire`, `Signal.poll`: the steps of one side run together
-/

namespace LedgerWatch

/-- Where a wait stands. -/
inductive Waiter where
  /-- Not armed. -/
  | arriving
  /-- Armed and about to look at the mark. -/
  | armed (woken : Bool)
  /-- Has found the mark not set and is about to sleep. -/
  | looked (woken : Bool)
  /-- Asleep until woken. -/
  | asleep (woken : Bool)
  /-- Over. -/
  | returned
  deriving DecidableEq

/-- A wake-up reaches every wait that has armed itself. -/
def Waiter.wake : Waiter → Waiter
  | arriving => arriving
  | armed _ => armed true
  | looked _ => looked true
  | asleep _ => asleep true
  | returned => returned

/-- The next step of a wait, given the mark. A wait that was woken starts anew. -/
def Waiter.advance (raised : Bool) : Waiter → Waiter
  | arriving => armed false
  | armed woken => if raised then returned else looked woken
  | looked woken | asleep woken => if woken then arriving else asleep false
  | returned => returned

/-- A signal with its waits. -/
structure Signal where
  raised : Bool := false
  /-- How many raisings have set the mark and not woken the waits yet. -/
  waking : Nat := 0
  waiters : List Waiter := []
  deriving DecidableEq

namespace Signal

/-- The first half of a raising: sets the mark. -/
def raise (s : Signal) : Signal := { s with raised := true, waking := s.waking + 1 }

/-- The second half of a raising: wakes the waits. -/
def wake (s : Signal) : Signal :=
  if s.waking = 0 then s
  else { s with waking := s.waking - 1, waiters := s.waiters.map Waiter.wake }

/-- Both halves of a raising. -/
def fire (s : Signal) : Signal := s.raise.wake

/-- A wait begins. -/
def join (s : Signal) : Signal × Nat :=
  ({ s with waiters := s.waiters ++ [.arriving] }, s.waiters.length)

def advance (i : Nat) (s : Signal) : Signal :=
  { s with waiters := s.waiters.modify i (Waiter.advance s.raised) }

/-- Runs a wait until it sleeps or is over. Five steps are enough: a wait that was woken before it
looked starts anew after that, arms itself, looks and goes to sleep. -/
def poll (i : Nat) (s : Signal) : Signal :=
  Nat.repeat (advance i) 5 s

def isReturned (i : Nat) (s : Signal) : Bool :=
  s.waiters[i]? == some .returned

end Signal

end LedgerWatch
