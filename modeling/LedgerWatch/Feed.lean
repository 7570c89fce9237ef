import LedgerWatch.Fault

/-!
# Streams of the node

A feed is the client's end of one of the node's streams. Items wait in it until a listener takes
them. It can be opened once, and closing it lets the waiting items through first.

One loop consumes every feed. It hands the items to a consumer in the order of their arrival, one at
a time, and stops at the first of: cancellation, the end of the stream, a failure of the stream, a
fault of the consumer.

## Main definitions

- `Feed`, `Feed.push`, `Feed.close`, `Feed.openOnce`, `Feed.release`: the channel
- `Feed.Outcome`: how far the loop came
- `Feed.consume`: the loop over the items that have arrived

## Design notes

The consumer works on a state that also tells whether the loop has been cancelled, so a consumer
may cancel the loop it runs in. A stream that is still open makes the loop wait, and it goes on from
there when more items arrive.
-/

namespace LedgerWatch

/-- What became of the receiving end of a feed. -/
inductive ReceiverState where
  | unopened
  | listening
  | gone
  deriving DecidableEq

/-- The client's end of a stream. -/
structure Feed (α : Type) where
  /-- The items that no listener has taken yet, oldest first. -/
  waiting : List (Except RpcStatus α) := []
  /-- Whether the node has ended the stream. -/
  closed : Bool := false
  receiver : ReceiverState := .unopened
  /-- The status with which the next attempt to open the feed fails. -/
  openFailure : Option RpcStatus := none

namespace Feed

variable {α : Type}

/-- Adds an item, and tells whether anyone may still receive it. -/
def push (item : Except RpcStatus α) (feed : Feed α) : Feed α × Bool :=
  if feed.closed || feed.receiver == .gone then (feed, false)
  else ({ feed with waiting := feed.waiting ++ [item] }, true)

/-- Ends the stream after the items that wait. -/
def close (feed : Feed α) : Feed α := { feed with closed := true }

/-- Makes the next attempt to open the feed fail. -/
def failOpen (status : RpcStatus) (feed : Feed α) : Feed α :=
  { feed with openFailure := some status }

def isOpened (feed : Feed α) : Bool := feed.receiver != .unopened

/-- Opens the feed. An announced failure is used up before anything else is looked at. -/
def openOnce (feed : Feed α) : Feed α × Except RpcStatus Unit :=
  match feed.openFailure with
  | some status => ({ feed with openFailure := none }, .error status)
  | none =>
    match feed.receiver with
    | .unopened => ({ feed with receiver := .listening }, .ok ())
    | .listening | .gone => (feed, .error (.unavailable "stream already opened"))

/-- Gives up the receiving end, and with it the items that wait. -/
def release (feed : Feed α) : Feed α :=
  { feed with receiver := .gone, waiting := [] }

/-- How far the loop came. -/
inductive Outcome where
  /-- All items that arrived are consumed and the stream is still open. -/
  | waiting
  /-- The loop is over. -/
  | finished (result : Except Fault Unit)

/-- Consumes the items that have arrived. `ended` tells whether the stream ends after them. -/
def consume {σ : Type} (isCancelled : σ → Bool) (consumer : α → σ → σ × Except Fault Unit)
    (ended : Bool) : List (Except RpcStatus α) → σ → σ × Outcome
  | [], s =>
    if isCancelled s || ended then (s, .finished (.ok ()))
    else (s, .waiting)
  | .error status :: _, s =>
    if isCancelled s || status.isCancelled then (s, .finished (.ok ()))
    else (s, .finished (.error (.rpc status)))
  | .ok item :: rest, s =>
    if isCancelled s then (s, .finished (.ok ()))
    else
      match consumer item s with
      | (s, .error fault) => (s, .finished (.error fault))
      | (s, .ok ()) => consume isCancelled consumer ended rest s

end Feed

end LedgerWatch
