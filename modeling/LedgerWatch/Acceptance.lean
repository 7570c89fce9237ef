import LedgerWatch.Notifier
import LedgerWatch.Status.Cache
import LedgerWatch.Table

/-!
# Waiting for acceptance

Callers wait for one block to be accepted, with a callback that runs once or with any number of
listeners, or for a slot to be finalized, with listeners.

The stream of accepted blocks tells of transitions only, so a block that was accepted before the
caller registered would be missed. A registration therefore has two moments: the callback or
listener is entered, and afterwards the node's answer to a query for the block is dealt with. If
the block turns out to be accepted already, the registration is served at once. A block that the
node does not know yet keeps its registration.

## Main definitions

- `Acceptance`: the callbacks and listeners that wait
- `Acceptance.enterCallback`, `Acceptance.answerCallback`: the two moments of a callback
- `Acceptance.enterListener`, `Acceptance.answerListener`: those of a listener
- `Acceptance.enterSlotListener`, `Acceptance.checkSlot`: the two moments of a slot listener
- `Acceptance.slotFinalized`, `Acceptance.hear`: a finalized commitment that is announced
- `Acceptance.deliver`: a block from the stream

## Design notes

Callbacks are values of an arbitrary type `β`. A step that runs one returns it with the metadata it
runs on, and it has left the table by then, so it cannot run again.
-/

namespace LedgerWatch

/-- The callbacks and listeners that wait. -/
structure Acceptance (β : Type) where
  callbacks : Table BlockId β := []
  blockListeners : Notifier BlockId := {}
  slotListeners : Notifier Slot := {}

/-- A callback that runs, and the metadata it runs on. -/
structure Invocation (β : Type) where
  callback : β
  metadata : BlockMetadata

/-- What a query says about a block: its metadata, that it is unknown, or nothing. -/
def queryResult (answer : Except RpcStatus BlockMetadata) : Except Fault (Option BlockMetadata) :=
  match answer with
  | .ok metadata => .ok (some metadata)
  | .error status => if status.isNotFound then .ok none else .error (.rpc status)

namespace Acceptance

variable {β : Type}

def empty : Acceptance β := {}

def pending (a : Acceptance β) : Nat := a.callbacks.length

/-- Enters a callback, unless one waits for the block already. -/
def enterCallback (block : BlockId) (callback : β) (a : Acceptance β) :
    Acceptance β × Except Fault Unit :=
  match a.callbacks.lookup block with
  | some _ => (a, .error (.alreadyRegistered block))
  | none => ({ a with callbacks := a.callbacks.put block callback }, .ok ())

/-- Runs the callback that waits for a block, if there is one. -/
def runCallback (metadata : BlockMetadata) (a : Acceptance β) :
    Acceptance β × Option (Invocation β) :=
  ({ a with callbacks := a.callbacks.erase metadata.blockId },
    (a.callbacks.lookup metadata.blockId).map (⟨·, metadata⟩))

/-- Deals with the answer to the query of a callback. -/
def answerCallback (answer : Except RpcStatus BlockMetadata) (a : Acceptance β) :
    Acceptance β × Option (Invocation β) × Except Fault Unit :=
  match queryResult answer with
  | .error fault => (a, none, .error fault)
  | .ok none => (a, none, .ok ())
  | .ok (some metadata) =>
    if metadata.state.isAccepted then
      let (a, invocation) := a.runCallback metadata
      (a, invocation, .ok ())
    else (a, none, .ok ())

def enterListener (block : BlockId) (a : Acceptance β) : Acceptance β × Listener BlockId :=
  let (blockListeners, listener) := a.blockListeners.listen block
  ({ a with blockListeners }, listener)

def signalBlock (block : BlockId) (a : Acceptance β) : Acceptance β :=
  { a with blockListeners := (a.blockListeners.notify block).1 }

/-- Deals with the answer to the query of a listener, which stays registered in any case. -/
def answerListener (block : BlockId) (answer : Except RpcStatus BlockMetadata)
    (a : Acceptance β) : Acceptance β × Except Fault Unit :=
  match queryResult answer with
  | .error fault => (a, .error fault)
  | .ok none => (a, .ok ())
  | .ok (some metadata) =>
    (if metadata.state.isAccepted then a.signalBlock block else a, .ok ())

def enterSlotListener (slot : Slot) (a : Acceptance β) : Acceptance β × Listener Slot :=
  let (slotListeners, listener) := a.slotListeners.listen slot
  ({ a with slotListeners }, listener)

/-- Signals the listeners of a slot that the finalized commitment has reached by now. -/
def checkSlot (slot : Slot) (finalized : Option Commitment) (a : Acceptance β) : Acceptance β :=
  if finalized.any fun commitment => slot ≤ commitment.slot then
    { a with slotListeners := (a.slotListeners.notify slot).1 }
  else a

/-- Signals the listeners of all slots up to that of a finalized commitment. -/
def slotFinalized (commitment : Commitment) (a : Acceptance β) : Acceptance β :=
  { a with
    slotListeners := (a.slotListeners.notifyWhere fun slot => slot ≤ commitment.slot).1 }

/-- The hook on the announcements of a picture. Only finalized commitments matter here. -/
def hear (event : StatusEvent) (a : Acceptance β) : Acceptance β :=
  match event with
  | .latestChanged _ => a
  | .finalizedChanged commitment => a.slotFinalized commitment

/-- Withdraws the callback for a block, and tells whether there was one. -/
def withdraw (block : BlockId) (a : Acceptance β) : Acceptance β × Bool :=
  ({ a with callbacks := a.callbacks.erase block }, (a.callbacks.lookup block).isSome)

def clear (a : Acceptance β) : Acceptance β := { a with callbacks := [] }

/-- A block reported by the stream: its callback runs and its listeners are signalled. -/
def deliver (metadata : BlockMetadata) (a : Acceptance β) :
    Acceptance β × Option (Invocation β) :=
  let (a, invocation) := a.runCallback metadata
  (a.signalBlock metadata.blockId, invocation)

def dropListener (listener : Listener BlockId) (a : Acceptance β) : Acceptance β :=
  { a with blockListeners := a.blockListeners.drop listener }

def dropSlotListener (listener : Listener Slot) (a : Acceptance β) : Acceptance β :=
  { a with slotListeners := a.slotListeners.drop listener }

end Acceptance

end LedgerWatch
