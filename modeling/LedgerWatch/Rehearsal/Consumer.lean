import LedgerWatch.Feed

/-!
# Scripted consumers

A consumer that notes every item it is given and that cancels the loop, or fails, at a chosen item.

## Main definitions

- `ConsumerPlan`: at which items what happens
- `ConsumerState`: what the consumer has seen
- `ConsumerPlan.consume`: one item
- `rehearseStream`: a whole stream
-/

namespace LedgerWatch

/-- At which items, counted from one, a consumer cancels its loop or fails. -/
structure ConsumerPlan where
  cancelAt : Option Nat := none
  failAt : Option Nat := none

/-- What a consumer has seen, and whether its loop is cancelled. -/
structure ConsumerState (α : Type) where
  cancelled : Bool := false
  seen : List α := []

def consumerStopped : Fault := .internal "consumer stopped"

/-- Whether a loop is cancelled by the item with a number, and how its consumer ends there. -/
def ConsumerPlan.decide (plan : ConsumerPlan) (number : Nat) : Bool × Except Fault Unit :=
  (plan.cancelAt == some number,
    if plan.failAt == some number then .error consumerStopped else .ok ())

def ConsumerPlan.consume {α : Type} (plan : ConsumerPlan) (item : α) (s : ConsumerState α) :
    ConsumerState α × Except Fault Unit :=
  let (cancels, result) := plan.decide (s.seen.length + 1)
  ({ cancelled := s.cancelled || cancels, seen := s.seen ++ [item] }, result)

def rehearseStream {α : Type} (plan : ConsumerPlan) (cancelled : Bool)
    (items : List (Except RpcStatus α)) : ConsumerState α × Feed.Outcome :=
  Feed.consume (·.cancelled) plan.consume true items { cancelled }

end LedgerWatch
