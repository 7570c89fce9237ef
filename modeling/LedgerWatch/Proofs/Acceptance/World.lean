import LedgerWatch.Acceptance
import Mathlib.Logic.Function.Basic

/-!
# Waiting beside a node

Callers register and withdraw, the node accepts blocks and reports them on its stream, and the
stream is delivered, all at the same time. A step is one of the moments that nothing interrupts: a
registration is entered, a query is read by the node, its answer is dealt with, the node changes its
mind about a block, a message is taken from the stream, its callback runs, its listeners are
signalled.

## Main definitions

- `Standing`, `Answers`: what the node knows of a block, and the answers to a query for it
- `Registration`, `QueryStage`, `Query`: the queries of those who registered
- `Delivery`: how far a message of the stream has come
- `World`: the node, its stream, the queries and those who wait
- `World.Step`, `World.Reachable`: the steps, in any order

## Design notes

Callbacks are named by numbers in the order in which they were entered. The handles that callers
keep are recorded apart from the notifier, so that a listener that the notifier forgot would still
count as waiting. A handle may be dropped while its query is open, and the answer is then dealt with
all the same, which signals the other listeners of the block at most earlier.
-/

namespace LedgerWatch

/-- What the node knows of a block. -/
structure Standing where
  state : BlockState
  failureReason : Option String := none

def Standing.metadata (block : BlockId) (standing : Standing) : BlockMetadata :=
  ⟨block, standing.state, standing.failureReason⟩

/-- Whether a block is accepted, given what the node knows of it. -/
def Standing.accepts : Option Standing → Bool
  | some standing => standing.state.isAccepted
  | none => false

/-- The answers to a query for a block, given what the node knows of it. The query may also fail for
a reason of its own. -/
inductive Answers (block : BlockId) : Option Standing → Except RpcStatus BlockMetadata → Prop
  | known (standing : Standing) : Answers block (some standing) (.ok (standing.metadata block))
  | unknown {status : RpcStatus} (h : status.isNotFound = true) :
      Answers block none (.error status)
  | failed (standing : Option Standing) {status : RpcStatus} (h : status.isNotFound = false) :
      Answers block standing (.error status)

/-- A registration, by the number of its callback or of its listener. -/
inductive Registration where
  | callback (number : Nat)
  | listener (id : Nat)
  deriving DecidableEq

/-- Where the query of a registration stands. -/
inductive QueryStage where
  | unread
  /-- The node has answered, and the answer is not dealt with yet. -/
  | answered (answer : Except RpcStatus BlockMetadata)
  | handled (answer : Except RpcStatus BlockMetadata)

/-- The query is not dealt with yet. -/
def QueryStage.IsOpen : QueryStage → Prop
  | unread | answered _ => True
  | handled _ => False

/-- The query was dealt with and had failed, and not because the node did not know the block. -/
def QueryStage.Failed : QueryStage → Prop
  | handled (.error status) => status.isNotFound = false
  | _ => False

structure Query where
  block : BlockId
  stage : QueryStage

/-- How far a message of the stream has come. -/
inductive Delivery where
  | idle
  /-- Taken from the stream. -/
  | taken (metadata : BlockMetadata)
  /-- Taken, and its callback has run. -/
  | called (metadata : BlockMetadata)

def Delivery.message : Delivery → List BlockMetadata
  | idle => []
  | taken metadata | called metadata => [metadata]

/-- The message that is being delivered and has not reached the callbacks. -/
def Delivery.uncalled : Delivery → List BlockMetadata
  | taken metadata => [metadata]
  | idle | called _ => []

structure World where
  waiting : Acceptance Nat
  /-- The handles that callers keep. -/
  handles : List (Listener BlockId)
  queries : Registration → Option Query
  /-- The number of callbacks that were entered so far. -/
  entered : Nat
  node : BlockId → Option Standing
  /-- The messages that no one has taken yet, oldest first. -/
  stream : List BlockMetadata
  delivery : Delivery

namespace World

def start (node : BlockId → Option Standing) (stream : List BlockMetadata) : World where
  waiting := .empty
  handles := []
  queries := fun _ => none
  entered := 0
  node
  stream
  delivery := .idle

def setQuery (registration : Registration) (block : BlockId) (stage : QueryStage) (w : World) :
    World :=
  { w with queries := Function.update w.queries registration (some ⟨block, stage⟩) }

@[simp] theorem queries_setQuery_self (registration : Registration) (block : BlockId)
    (stage : QueryStage) (w : World) :
    (w.setQuery registration block stage).queries registration = some ⟨block, stage⟩ :=
  Function.update_self ..

theorem queries_setQuery_of_ne {registration other : Registration} (h : other ≠ registration)
    (block : BlockId) (stage : QueryStage) (w : World) :
    (w.setQuery registration block stage).queries other = w.queries other :=
  Function.update_of_ne h ..

theorem eq_or_of_queries_setQuery {registration other : Registration} {block : BlockId}
    {stage : QueryStage} {w : World} {query : Query}
    (h : (w.setQuery registration block stage).queries other = some query) :
    other = registration ∧ query = ⟨block, stage⟩ ∨ w.queries other = some query := by
  by_cases heq : other = registration
  · subst heq
    rw [queries_setQuery_self, Option.some.injEq] at h
    exact .inl ⟨rfl, h.symm⟩
  · rw [queries_setQuery_of_ne heq] at h
    exact .inr h

/-- A registration has a query for a block, at whatever stage. -/
def HasQuery (registration : Registration) (block : BlockId) (w : World) : Prop :=
  ∃ stage, w.queries registration = some ⟨block, stage⟩

theorem hasQuery_setQuery_self (registration : Registration) (block : BlockId)
    (stage : QueryStage) (w : World) :
    (w.setQuery registration block stage).HasQuery registration block :=
  ⟨stage, queries_setQuery_self ..⟩

/-- A query that is found stays there if the one that is set is for the same block or is another
registration's. -/
theorem HasQuery.setQuery {registration other : Registration} {block key : BlockId} {w : World}
    (h : w.HasQuery other key) (hsame : other = registration → key = block) (stage : QueryStage) :
    (w.setQuery registration block stage).HasQuery other key := by
  by_cases heq : other = registration
  · obtain rfl := hsame heq
    exact heq ▸ hasQuery_setQuery_self ..
  · obtain ⟨stage', hquery⟩ := h
    exact ⟨stage', by rwa [queries_setQuery_of_ne heq]⟩

/-- Enters a callback. One that is refused is not queried for. -/
def enterCallback (block : BlockId) (w : World) : World :=
  match w.waiting.enterCallback block w.entered with
  | (waiting, .ok ()) =>
    { w with waiting, entered := w.entered + 1 }.setQuery (.callback w.entered) block .unread
  | (waiting, .error _) => { w with waiting }

theorem enterCallback_of_pending {block : BlockId} {w : World} {number : Nat}
    (h : w.waiting.callbacks.lookup block = some number) : w.enterCallback block = w := by
  simp [enterCallback, Acceptance.enterCallback, h]

theorem enterCallback_of_free {block : BlockId} {w : World}
    (h : w.waiting.callbacks.lookup block = none) :
    w.enterCallback block =
      { w with
        waiting := { w.waiting with callbacks := w.waiting.callbacks.put block w.entered }
        entered := w.entered + 1 }.setQuery (.callback w.entered) block .unread := by
  simp [enterCallback, Acceptance.enterCallback, h]

/-- Enters a listener, whose handle the caller keeps. -/
def enterListener (block : BlockId) (w : World) : World :=
  let (waiting, listener) := w.waiting.enterListener block
  { w with waiting, handles := listener :: w.handles }.setQuery
    (.listener listener.id) block .unread

theorem enterListener_eq (block : BlockId) (w : World) :
    w.enterListener block =
      { w with
        waiting := { w.waiting with blockListeners := (w.waiting.blockListeners.listen block).1 }
        handles := ⟨block, w.waiting.blockListeners.next⟩ :: w.handles }.setQuery
          (.listener w.waiting.blockListeners.next) block .unread := rfl

def answerCallback (number : Nat) (block : BlockId) (answer : Except RpcStatus BlockMetadata)
    (w : World) : World :=
  { w with waiting := (w.waiting.answerCallback answer).1 }.setQuery
    (.callback number) block (.handled answer)

def answerListener (id : Nat) (block : BlockId) (answer : Except RpcStatus BlockMetadata)
    (w : World) : World :=
  { w with waiting := (w.waiting.answerListener block answer).1 }.setQuery
    (.listener id) block (.handled answer)

def change (block : BlockId) (standing : Option Standing) (w : World) : World :=
  { w with node := Function.update w.node block standing }

/-- The node accepts a block and reports it. -/
def accept (block : BlockId) (standing : Standing) (w : World) : World :=
  { w.change block standing with stream := w.stream ++ [standing.metadata block] }

/-- Runs the callback for a message that was taken. -/
def call (metadata : BlockMetadata) (w : World) : World :=
  { w with waiting := (w.waiting.runCallback metadata).1, delivery := .called metadata }

/-- Signals the listeners for a message, which ends its delivery. -/
def signal (metadata : BlockMetadata) (w : World) : World :=
  { w with waiting := w.waiting.signalBlock metadata.blockId, delivery := .idle }

/-- The steps. The node accepts a block for good, and at most once. -/
inductive Step (w : World) : World → Prop
  -- those who register
  | enterCallback (block : BlockId) : Step w (w.enterCallback block)
  | enterListener (block : BlockId) : Step w (w.enterListener block)
  | read {registration : Registration} {block : BlockId} {answer : Except RpcStatus BlockMetadata}
      (hquery : w.queries registration = some ⟨block, .unread⟩)
      (hanswer : Answers block (w.node block) answer) :
      Step w (w.setQuery registration block (.answered answer))
  | answerCallback {number : Nat} {block : BlockId} {answer : Except RpcStatus BlockMetadata}
      (hquery : w.queries (.callback number) = some ⟨block, .answered answer⟩) :
      Step w (w.answerCallback number block answer)
  | answerListener {id : Nat} {block : BlockId} {answer : Except RpcStatus BlockMetadata}
      (hquery : w.queries (.listener id) = some ⟨block, .answered answer⟩) :
      Step w (w.answerListener id block answer)
  -- the node
  | accept {block : BlockId} {standing : Standing}
      (hbefore : Standing.accepts (w.node block) = false)
      (hafter : standing.state.isAccepted = true) : Step w (w.accept block standing)
  | change {block : BlockId} {standing : Option Standing}
      (hsame : Standing.accepts standing = Standing.accepts (w.node block)) :
      Step w (w.change block standing)
  -- its stream
  | take {metadata : BlockMetadata} {rest : List BlockMetadata} (hidle : w.delivery = .idle)
      (hstream : w.stream = metadata :: rest) :
      Step w { w with stream := rest, delivery := .taken metadata }
  | call {metadata : BlockMetadata} (htaken : w.delivery = .taken metadata) :
      Step w (w.call metadata)
  | signal {metadata : BlockMetadata} (hcalled : w.delivery = .called metadata) :
      Step w (w.signal metadata)
  -- those who give up
  | withdraw (block : BlockId) : Step w { w with waiting := (w.waiting.withdraw block).1 }
  | clear : Step w { w with waiting := w.waiting.clear }
  | dropListener {listener : Listener BlockId} (hkept : listener ∈ w.handles) :
      Step w { w with
        waiting := w.waiting.dropListener listener
        handles := w.handles.filter (· ≠ listener) }

/-- The worlds to which steps lead, in any order and from any state of the node and its stream. -/
inductive Reachable : World → Prop
  | start (node : BlockId → Option Standing) (stream : List BlockMetadata) :
      Reachable (start node stream)
  | step {w w' : World} (h : Reachable w) (hstep : Step w w') : Reachable w'

/-- The node has accepted the block. -/
def Accepted (block : BlockId) (w : World) : Prop :=
  Standing.accepts (w.node block) = true

/-- A registration still waits for a block: its callback is pending, or the handle of its listener
is kept and the listener is not signalled. -/
def Waits (block : BlockId) (w : World) : Registration → Prop
  | .callback number => w.waiting.callbacks.lookup block = some number
  | .listener id =>
    ⟨block, id⟩ ∈ w.handles ∧ w.waiting.blockListeners.isTriggered ⟨block, id⟩ = false

/-- A message for the block is in the stream or being delivered. -/
def Undelivered (block : BlockId) (w : World) : Prop :=
  ∃ metadata ∈ w.delivery.message ++ w.stream, metadata.blockId = block

/-- A message for the block has not come to a registration of this kind yet. Callbacks are served
before listeners. -/
def Ahead (block : BlockId) (w : World) : Registration → Prop
  | .callback _ => ∃ metadata ∈ w.delivery.uncalled ++ w.stream, metadata.blockId = block
  | .listener _ => w.Undelivered block

end World

end LedgerWatch
