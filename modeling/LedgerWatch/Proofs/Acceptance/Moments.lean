import LedgerWatch.Proofs.Acceptance.Callbacks
import LedgerWatch.Proofs.Notifier.Bookkeeping
import LedgerWatch.Rehearsal.Client.Task

/-!
# Who is told, and by which moment

Three things tell that a block was accepted: the answer to the query of a callback, the answer to
the query of a listener, and the stream. The first reaches callbacks only, the second reaches
listeners only, and the third reaches both. Only the stream reports transitions, so it alone fires
the event.

## Main definitions

- `AcceptanceMoment`: what is done to those who wait, up to where something else may come between
- `AcceptanceRun`: those who wait, with the handles they keep, and what was done for them
- `AcceptanceRun.perform`, `AcceptanceRun.after`: one moment, and a sequence of them
- `AcceptanceRun.Leaves`, `AcceptanceRun.Adds`, `AcceptanceRun.Removes`: a callback or a listener
  comes or goes
- `AcceptanceRun.Calls`, `AcceptanceRun.Signals`: one callback is run, the listeners of a block are
  signalled, and nothing else is done
- `AcceptanceRun.Framed`: what each moment does and what it leaves alone

## Main results

- `AcceptanceRun.Kept.perform`: the registered listeners are those whose handles are kept
- `AcceptanceRun.announced_after`: the event fires for the messages of the stream, in order
- `AcceptanceRun.framed_after`: after all moments, in any order, the next one is framed
- `AcceptanceRun.ofClient_consumeAccepted`: a client that takes a message performs these moments
-/

namespace LedgerWatch

/-- The answer to a query says that a block is accepted. -/
def saysAccepted : Except RpcStatus BlockMetadata → Bool
  | .ok metadata => metadata.state.isAccepted
  | .error _ => false

/-- What is done to those who wait. A registration is entered in one moment and its query answered
in another, in any way. A message of the stream is reported, taken, and passed to the callback, the
listeners and the event. -/
inductive AcceptanceMoment (β : Type) where
  | enterCallback (block : BlockId) (callback : β)
  | answerCallback (answer : Except RpcStatus BlockMetadata)
  | enterListener (block : BlockId)
  | answerListener (block : BlockId) (answer : Except RpcStatus BlockMetadata)
  | enterSlotListener (slot : Slot)
  | checkSlot (slot : Slot) (finalized : Option Commitment)
  | hear (event : StatusEvent)
  | withdraw (block : BlockId)
  | clear
  | dropListener (listener : Listener BlockId)
  | dropSlotListener (listener : Listener Slot)
  | report (metadata : BlockMetadata)
  | take
  | call
  | signal
  | announce

namespace AcceptanceMoment

variable {β : Type}

/-- The moments that may do something to callbacks. -/
def reachesCallbacks : AcceptanceMoment β → Bool
  | enterCallback .. | answerCallback _ | withdraw _ | clear | call => true
  | _ => false

/-- The moments that may do something to listeners. -/
def reachesListeners : AcceptanceMoment β → Bool
  | enterListener _ | answerListener .. | dropListener _ | signal => true
  | enterSlotListener _ | checkSlot .. | hear _ | dropSlotListener _ => true
  | _ => false

/-- The message that the node puts on the stream. -/
def reported? : AcceptanceMoment β → Option BlockMetadata
  | report metadata => some metadata
  | _ => none

end AcceptanceMoment

/-- How far a message of the stream has come. -/
inductive Passage where
  | idle
  | taken (metadata : BlockMetadata)
  | called (metadata : BlockMetadata)
  | signalled (metadata : BlockMetadata)

/-- The message that was taken and not announced yet. -/
def Passage.message? : Passage → Option BlockMetadata
  | idle => none
  | taken metadata | called metadata | signalled metadata => some metadata

/-- Those who wait, and what was done for them. -/
structure AcceptanceRun (β : Type) where
  waiting : Acceptance β := .empty
  /-- The handles on listeners for blocks that callers keep. -/
  handles : List (Listener BlockId) := []
  /-- The messages that no one has taken yet, oldest first. -/
  stream : List BlockMetadata := []
  passage : Passage := .idle
  invoked : List (Invocation β) := []
  /-- The messages that the event was fired with, oldest first. -/
  announced : List BlockMetadata := []

namespace AcceptanceRun

variable {β : Type}

/-- One moment. A message moves on only from where it is, and only handles that are kept can be
dropped. -/
def perform (s : AcceptanceRun β) : AcceptanceMoment β → AcceptanceRun β
  | .enterCallback block callback =>
    { s with waiting := (s.waiting.enterCallback block callback).1 }
  | .answerCallback answer =>
    { s with
      waiting := (s.waiting.answerCallback answer).1
      invoked := s.invoked ++ (s.waiting.answerCallback answer).2.1.toList }
  | .enterListener block =>
    { s with
      waiting := (s.waiting.enterListener block).1
      handles := s.handles ++ [(s.waiting.enterListener block).2] }
  | .answerListener block answer =>
    { s with waiting := (s.waiting.answerListener block answer).1 }
  | .enterSlotListener slot => { s with waiting := (s.waiting.enterSlotListener slot).1 }
  | .checkSlot slot finalized => { s with waiting := s.waiting.checkSlot slot finalized }
  | .hear event => { s with waiting := s.waiting.hear event }
  | .withdraw block => { s with waiting := (s.waiting.withdraw block).1 }
  | .clear => { s with waiting := s.waiting.clear }
  | .dropListener listener =>
    if listener ∈ s.handles then
      { s with
        waiting := s.waiting.dropListener listener
        handles := s.handles.filter (· ≠ listener) }
    else s
  | .dropSlotListener listener => { s with waiting := s.waiting.dropSlotListener listener }
  | .report metadata => { s with stream := s.stream ++ [metadata] }
  | .take =>
    match s.passage, s.stream with
    | .idle, metadata :: rest => { s with stream := rest, passage := .taken metadata }
    | _, _ => s
  | .call =>
    match s.passage with
    | .taken metadata =>
      { s with
        waiting := (s.waiting.runCallback metadata).1
        invoked := s.invoked ++ (s.waiting.runCallback metadata).2.toList
        passage := .called metadata }
    | _ => s
  | .signal =>
    match s.passage with
    | .called metadata =>
      { s with waiting := s.waiting.signalBlock metadata.blockId, passage := .signalled metadata }
    | _ => s
  | .announce =>
    match s.passage with
    | .signalled metadata => { s with announced := s.announced ++ [metadata], passage := .idle }
    | _ => s

/-- What moments make of an empty registry beside an empty stream. -/
def after (moments : List (AcceptanceMoment β)) : AcceptanceRun β :=
  moments.foldl perform {}

/-! ## What a moment leaves alone -/

/-- No callback comes, goes or is run. -/
structure SameCallbacks (s s' : AcceptanceRun β) : Prop where
  callbacks : s'.waiting.callbacks = s.waiting.callbacks
  invoked : s'.invoked = s.invoked

/-- No listener comes, goes or is signalled. -/
structure SameListeners (s s' : AcceptanceRun β) : Prop where
  blockListeners : s'.waiting.blockListeners = s.waiting.blockListeners
  slotListeners : s'.waiting.slotListeners = s.waiting.slotListeners
  handles : s'.handles = s.handles

/-- For a block there is the given callback now, or none. No other comes or goes, and none is
run. -/
structure Leaves (block : BlockId) (callback? : Option β) (s s' : AcceptanceRun β) : Prop where
  there : s'.waiting.callbacks.lookup block = callback?
  others : ∀ other ≠ block,
    s'.waiting.callbacks.lookup other = s.waiting.callbacks.lookup other
  invoked : s'.invoked = s.invoked

/-- A listener comes, with a handle that was not there before, and waits. The others are told
nothing. -/
structure Adds (listener : Listener BlockId) (s s' : AcceptanceRun β) : Prop where
  new : listener ∉ s.handles
  handles : s'.handles = s.handles ++ [listener]
  registered : (Notifier.entries s'.waiting.blockListeners.table).Perm
    ((listener.key, listener.id) :: Notifier.entries s.waiting.blockListeners.table)
  waits : s'.waiting.blockListeners.isTriggered listener = false
  others : ∀ other ∈ s.handles,
    s'.waiting.blockListeners.isTriggered other = s.waiting.blockListeners.isTriggered other

/-- A listener goes, and its handle with it. The others are told nothing. -/
structure Removes (listener : Listener BlockId) (s s' : AcceptanceRun β) : Prop where
  handles : s'.handles = s.handles.filter (· ≠ listener)
  registered : Notifier.entries s'.waiting.blockListeners.table =
    (Notifier.entries s.waiting.blockListeners.table).filter (· ≠ (listener.key, listener.id))
  others : ∀ other ∈ s'.handles,
    s'.waiting.blockListeners.isTriggered other = s.waiting.blockListeners.isTriggered other

/-- The callback for the block of the metadata is taken out and run, if there is one, and nothing
else happens to callbacks and listeners. -/
structure Calls (metadata : BlockMetadata) (s s' : AcceptanceRun β) : Prop where
  removed : s'.waiting.callbacks.lookup metadata.blockId = none
  others : ∀ block ≠ metadata.blockId,
    s'.waiting.callbacks.lookup block = s.waiting.callbacks.lookup block
  invoked : s'.invoked = s.invoked ++
    ((s.waiting.callbacks.lookup metadata.blockId).map (⟨·, metadata⟩)).toList
  listeners : SameListeners s s'

/-- The listeners for a block are signalled. All stay registered, and nothing else happens to
callbacks and listeners. -/
structure Signals (block : BlockId) (s s' : AcceptanceRun β) : Prop where
  handles : s'.handles = s.handles
  registered : s'.waiting.blockListeners.table = s.waiting.blockListeners.table
  signalled : ∀ listener ∈ s.handles, s'.waiting.blockListeners.isTriggered listener =
    (s.waiting.blockListeners.isTriggered listener || decide (listener.key = block))
  slotListeners : s'.waiting.slotListeners = s.waiting.slotListeners
  callbacks : SameCallbacks s s'

/-- What the next moment does, and what it leaves alone. -/
structure Framed (s : AcceptanceRun β) : Prop where
  /-- The registered listeners are those whose handles are kept. -/
  registered : (Notifier.entries s.waiting.blockListeners.table).Perm
    (s.handles.map fun listener => (listener.key, listener.id))
  sameCallbacks : ∀ moment : AcceptanceMoment β, moment.reachesCallbacks = false →
    SameCallbacks s (s.perform moment)
  sameListeners : ∀ moment : AcceptanceMoment β, moment.reachesListeners = false →
    SameListeners s (s.perform moment)
  /-- One callback may wait for a block. Another that comes changes nothing. -/
  enterCallback : ∀ block callback,
    (s.waiting.callbacks.lookup block = none →
      Leaves block (some callback) s (s.perform (.enterCallback block callback))) ∧
    ((s.waiting.callbacks.lookup block).isSome → s.perform (.enterCallback block callback) = s)
  withdraw : ∀ block, Leaves block none s (s.perform (.withdraw block))
  clear : (s.perform .clear).waiting.callbacks = [] ∧ (s.perform .clear).invoked = s.invoked
  enterListener : ∀ block, Adds ⟨block, s.waiting.blockListeners.next⟩ s
    (s.perform (.enterListener block))
  dropListener : ∀ listener ∈ s.handles,
    Removes listener s (s.perform (.dropListener listener))
  /-- Answers that do not say that the block is accepted change nothing. -/
  unaccepted : ∀ answer, saysAccepted answer = false →
    s.perform (.answerCallback answer) = s ∧ ∀ block, s.perform (.answerListener block answer) = s
  answerCallback : ∀ metadata : BlockMetadata, metadata.state.isAccepted = true →
    Calls metadata s (s.perform (.answerCallback (.ok metadata)))
  answerListener : ∀ (block : BlockId) (metadata : BlockMetadata),
    metadata.state.isAccepted = true →
      Signals block s (s.perform (.answerListener block (.ok metadata)))
  /-- The next message of the stream is taken once the last one was announced. -/
  take : ∀ metadata rest, s.passage = .idle → s.stream = metadata :: rest →
    (s.perform .take).passage = .taken metadata ∧ (s.perform .take).stream = rest
  call : ∀ metadata, s.passage = .taken metadata → Calls metadata s (s.perform .call)
  signal : ∀ metadata, s.passage = .called metadata →
    Signals metadata.blockId s (s.perform .signal)
  announce : ∀ metadata, s.passage = .signalled metadata →
    (s.perform .announce).announced = s.announced ++ [metadata]
  /-- Nothing but the stream fires the event. -/
  silent : ∀ moment : AcceptanceMoment β, moment ≠ .announce →
    (s.perform moment).announced = s.announced

variable {s s' : AcceptanceRun β}

/-! ## Answers -/

end AcceptanceRun

namespace Acceptance

variable {β : Type}

theorem answerCallback_of_unaccepted {answer : Except RpcStatus BlockMetadata}
    (h : saysAccepted answer = false) (a : Acceptance β) :
    (a.answerCallback answer).1 = a ∧ (a.answerCallback answer).2.1 = none := by
  cases answer with
  | ok metadata =>
    have hnot : metadata.state.isAccepted = false := h
    simp [answerCallback, queryResult, hnot]
  | error status => cases hfound : status.isNotFound <;> simp [answerCallback, queryResult, hfound]

theorem answerCallback_of_accepted {metadata : BlockMetadata}
    (h : metadata.state.isAccepted = true) (a : Acceptance β) :
    (a.answerCallback (.ok metadata)).1 = (a.runCallback metadata).1 ∧
      (a.answerCallback (.ok metadata)).2.1 = (a.runCallback metadata).2 := by
  simp [answerCallback, queryResult, h]

theorem answerListener_of_unaccepted {answer : Except RpcStatus BlockMetadata}
    (h : saysAccepted answer = false) (block : BlockId) (a : Acceptance β) :
    (a.answerListener block answer).1 = a := by
  cases answer with
  | ok metadata =>
    have hnot : metadata.state.isAccepted = false := h
    simp [answerListener, queryResult, hnot]
  | error status => cases hfound : status.isNotFound <;> simp [answerListener, queryResult, hfound]

theorem answerListener_of_accepted {metadata : BlockMetadata}
    (h : metadata.state.isAccepted = true) (block : BlockId) (a : Acceptance β) :
    (a.answerListener block (.ok metadata)).1 = a.signalBlock block := by
  simp [answerListener, queryResult, h]

theorem callbacks_answerListener (block : BlockId) (answer : Except RpcStatus BlockMetadata)
    (a : Acceptance β) : (a.answerListener block answer).1.callbacks = a.callbacks := by
  cases hanswer : saysAccepted answer with
  | false => rw [answerListener_of_unaccepted hanswer]
  | true =>
    cases answer with
    | ok metadata => rw [answerListener_of_accepted hanswer, signalBlock]
    | error => cases hanswer

theorem enterCallback_of_free {block : BlockId} {a : Acceptance β}
    (h : a.callbacks.lookup block = none) (callback : β) :
    (a.enterCallback block callback).1 =
      { a with callbacks := a.callbacks.put block callback } := by
  simp [enterCallback, h]

theorem enterCallback_of_pending {block : BlockId} {a : Acceptance β}
    (h : (a.callbacks.lookup block).isSome) (callback : β) :
    (a.enterCallback block callback).1 = a := by
  obtain ⟨pending, hpending⟩ := Option.isSome_iff_exists.mp h
  simp [enterCallback, hpending]

theorem enterCallback_listeners (block : BlockId) (callback : β) (a : Acceptance β) :
    (a.enterCallback block callback).1.blockListeners = a.blockListeners ∧
      (a.enterCallback block callback).1.slotListeners = a.slotListeners := by
  unfold enterCallback
  cases a.callbacks.lookup block <;> exact ⟨rfl, rfl⟩

theorem checkSlot_blocks (slot : Slot) (finalized : Option Commitment) (a : Acceptance β) :
    (a.checkSlot slot finalized).callbacks = a.callbacks ∧
      (a.checkSlot slot finalized).blockListeners = a.blockListeners := by
  unfold checkSlot
  split <;> exact ⟨rfl, rfl⟩

end Acceptance

namespace AcceptanceRun

variable {β : Type} {s s' : AcceptanceRun β}

/-! ## Callbacks and listeners that stay as they are -/

theorem sameCallbacks_perform {moment : AcceptanceMoment β}
    (h : moment.reachesCallbacks = false) : SameCallbacks s (s.perform moment) := by
  cases moment with
  | enterCallback | answerCallback | withdraw | clear | call => cases h
  | enterListener | enterSlotListener | dropSlotListener | report => exact ⟨rfl, rfl⟩
  | answerListener block answer => exact ⟨Acceptance.callbacks_answerListener .., rfl⟩
  | checkSlot slot finalized => exact ⟨(s.waiting.checkSlot_blocks slot finalized).1, rfl⟩
  | hear event => cases event <;> exact ⟨rfl, rfl⟩
  | dropListener listener =>
    by_cases hkept : listener ∈ s.handles
    · simp only [perform, if_pos hkept]
      exact ⟨rfl, rfl⟩
    · simp only [perform, if_neg hkept]
      exact ⟨rfl, rfl⟩
  | take | signal | announce =>
    simp only [perform]
    split <;> exact ⟨rfl, rfl⟩

theorem sameListeners_perform {moment : AcceptanceMoment β}
    (h : moment.reachesListeners = false) : SameListeners s (s.perform moment) := by
  cases moment with
  | enterListener | answerListener | dropListener | signal => cases h
  | enterSlotListener | checkSlot | hear | dropSlotListener => cases h
  | enterCallback block callback =>
    obtain ⟨hblock, hslot⟩ := s.waiting.enterCallback_listeners block callback
    exact ⟨hblock, hslot, rfl⟩
  | answerCallback answer =>
    obtain ⟨hsame, -⟩ | ⟨metadata, hruns, -⟩ := Acceptance.answerCallback_cases answer s.waiting
    · exact ⟨congrArg _ hsame, congrArg _ hsame, rfl⟩
    · exact ⟨(congrArg Acceptance.blockListeners hruns).trans rfl,
        (congrArg Acceptance.slotListeners hruns).trans rfl, rfl⟩
  | withdraw | clear | report => exact ⟨rfl, rfl, rfl⟩
  | call | take | announce =>
    simp only [perform]
    split <;> exact ⟨rfl, rfl, rfl⟩

theorem announced_perform {moment : AcceptanceMoment β} (h : moment ≠ .announce) :
    (s.perform moment).announced = s.announced := by
  cases moment with
  | announce => exact absurd rfl h
  | dropListener | take | call | signal =>
    simp only [perform]
    split <;> rfl
  | _ => rfl

/-! ## The stream -/

/-- What is announced, in delivery and on the stream is what was reported. -/
theorem reported_perform (s : AcceptanceRun β) (moment : AcceptanceMoment β) :
    (s.perform moment).announced ++ (s.perform moment).passage.message?.toList ++
        (s.perform moment).stream =
      s.announced ++ s.passage.message?.toList ++ s.stream ++ moment.reported?.toList := by
  cases moment with
  | report metadata => exact (List.append_assoc ..).symm
  | take =>
    simp only [perform]
    split
    · next hpassage hstream =>
      simp [hpassage, hstream, Passage.message?, AcceptanceMoment.reported?]
    · exact (List.append_nil _).symm
  | call | signal | announce =>
    simp only [perform]
    split
    · next hpassage => simp [hpassage, Passage.message?, AcceptanceMoment.reported?]
    · exact (List.append_nil _).symm
  | dropListener =>
    simp only [perform]
    split <;> exact (List.append_nil _).symm
  | _ => exact (List.append_nil _).symm

/-- The event fires once for every message of the stream that was passed on, in order. -/
theorem announced_after (moments : List (AcceptanceMoment β)) :
    (after moments).announced ++ (after moments).passage.message?.toList ++
      (after moments).stream = moments.filterMap AcceptanceMoment.reported? := by
  induction moments using List.reverseRecOn with
  | nil => rfl
  | append_singleton moments moment ih =>
    have hafter : after (moments ++ [moment]) = (after moments).perform moment := by
      simp [after]
    rw [hafter, reported_perform, ih, List.filterMap_append]
    cases hreported : moment.reported? <;> simp [hreported]

/-! ## Handles and listeners -/

/-- The notifier is what the calls on it make of it, and they gave out the handles kept. -/
def Kept (s : AcceptanceRun β) : Prop :=
  ∃ calls, NotifierCall.Proper calls ∧ Notifier.Books calls s.waiting.blockListeners ∧
    NotifierCall.held calls = s.handles

theorem Kept.same (h : s.Kept) (hlisteners : s'.waiting.blockListeners = s.waiting.blockListeners)
    (hhandles : s'.handles = s.handles) : s'.Kept := by
  obtain ⟨calls, hproper, hbooks, hheld⟩ := h
  exact ⟨calls, hproper, hlisteners ▸ hbooks, hheld.trans hhandles.symm⟩

/-- One more call on the notifier, with the handle that it gives out or takes back. -/
theorem Kept.call (h : s.Kept) (call : NotifierCall BlockId)
    (hdrop : ∀ listener, call = .drop listener → listener ∈ s.handles)
    (hlisteners : s'.waiting.blockListeners = call.perform s.waiting.blockListeners)
    (hhandles : s'.handles = (s.handles.filter fun l => call.dropped? ≠ some l) ++
      (call.gives s.waiting.blockListeners.next).toList) : s'.Kept := by
  obtain ⟨calls, hproper, hbooks, hheld⟩ := h
  rw [← hheld] at hdrop hhandles
  refine ⟨calls ++ [call], hproper.call hdrop, hlisteners ▸ hbooks.perform hproper hdrop, ?_⟩
  rw [NotifierCall.held_concat hproper, hhandles, hbooks.next_eq]

theorem kept_start : ({} : AcceptanceRun β).Kept :=
  ⟨[], .nil, Notifier.books_nil, rfl⟩

theorem Kept.signalled (h : s.Kept) {block : BlockId}
    (hlisteners : s'.waiting.blockListeners = (s.waiting.blockListeners.notify block).1)
    (hhandles : s'.handles = s.handles) : s'.Kept := by
  refine h.call (.notify block) (by simp) hlisteners ?_
  simp [hhandles, NotifierCall.dropped?, NotifierCall.gives]

theorem Kept.enterListener (h : s.Kept) (block : BlockId) :
    (s.perform (.enterListener block)).Kept := by
  refine h.call (.listen block) (by simp) rfl ?_
  simp [AcceptanceRun.perform, Acceptance.enterListener, Notifier.listen,
    NotifierCall.dropped?, NotifierCall.gives]

/-- The answer signals the block, or changes nothing. -/
theorem Kept.answerListener (h : s.Kept) (block : BlockId)
    (answer : Except RpcStatus BlockMetadata) :
    (s.perform (.answerListener block answer)).Kept := by
  cases hanswer : saysAccepted answer with
  | false =>
    have hsame := Acceptance.answerListener_of_unaccepted hanswer block s.waiting
    exact h.same (congrArg Acceptance.blockListeners hsame) rfl
  | true =>
    cases answer with
    | ok metadata =>
      have hsignals := Acceptance.answerListener_of_accepted hanswer block s.waiting
      exact h.signalled (congrArg Acceptance.blockListeners hsignals) rfl
    | error => cases hanswer

theorem Kept.dropListener (h : s.Kept) (listener : Listener BlockId) :
    (s.perform (.dropListener listener)).Kept := by
  by_cases hkept : listener ∈ s.handles
  · refine h.call (.drop listener) (by simpa using hkept) ?_ ?_
    · simp only [AcceptanceRun.perform, if_pos hkept]
      rfl
    · simp [AcceptanceRun.perform, hkept, NotifierCall.dropped?, NotifierCall.gives, eq_comm]
  · simpa only [AcceptanceRun.perform, if_neg hkept] using h

theorem Kept.perform (h : s.Kept) (moment : AcceptanceMoment β) : (s.perform moment).Kept := by
  cases hreaches : moment.reachesListeners with
  | false =>
    have hsame := sameListeners_perform (s := s) hreaches
    exact h.same hsame.blockListeners hsame.handles
  | true =>
    cases moment with
    | enterListener block => exact h.enterListener block
    | answerListener block answer => exact h.answerListener block answer
    | dropListener listener => exact h.dropListener listener
    | signal =>
      simp only [AcceptanceRun.perform]
      split
      · exact h.signalled rfl rfl
      · exact h
    | enterSlotListener slot => exact h.same rfl rfl
    | checkSlot slot finalized => exact h.same (s.waiting.checkSlot_blocks slot finalized).2 rfl
    | hear event => cases event <;> exact h.same rfl rfl
    | dropSlotListener listener => exact h.same rfl rfl
    | _ => cases hreaches

theorem kept_after (moments : List (AcceptanceMoment β)) : (after moments).Kept := by
  induction moments using List.reverseRecOn with
  | nil => exact kept_start
  | append_singleton moments moment ih =>
    rw [after, List.foldl_append]
    exact ih.perform moment

/-! ## The frame of the next moment -/

theorem calls_runCallback {metadata : BlockMetadata}
    (hwaiting : s'.waiting = (s.waiting.runCallback metadata).1)
    (hinvoked : s'.invoked = s.invoked ++ (s.waiting.runCallback metadata).2.toList)
    (hhandles : s'.handles = s.handles) : Calls metadata s s' where
  removed := by
    rw [hwaiting]
    exact Table.lookup_erase_self ..
  others := by
    intro block hne
    rw [hwaiting]
    exact Table.lookup_erase_of_ne hne _
  invoked := hinvoked
  listeners := ⟨hwaiting ▸ rfl, hwaiting ▸ rfl, hhandles⟩

theorem leaves_enterCallback {block : BlockId} (callback : β)
    (hfree : s.waiting.callbacks.lookup block = none) :
    Leaves block (some callback) s (s.perform (.enterCallback block callback)) := by
  have hcallbacks : (s.perform (.enterCallback block callback)).waiting.callbacks =
      s.waiting.callbacks.put block callback :=
    congrArg Acceptance.callbacks (Acceptance.enterCallback_of_free hfree callback)
  constructor
  case there =>
    rw [hcallbacks]
    exact Table.lookup_put_self ..
  case others =>
    intro other hne
    rw [hcallbacks]
    exact Table.lookup_put_of_ne hne ..
  case invoked => rfl

theorem leaves_withdraw (block : BlockId) : Leaves block none s (s.perform (.withdraw block)) :=
  ⟨Table.lookup_erase_self .., fun _ hne => Table.lookup_erase_of_ne hne _, rfl⟩

theorem Kept.adds (h : s.Kept) (block : BlockId) :
    Adds ⟨block, s.waiting.blockListeners.next⟩ s (s.perform (.enterListener block)) := by
  obtain ⟨calls, -, hbooks, hheld⟩ := h
  constructor
  case new =>
    intro hkept
    rw [← hheld, hbooks.next_eq] at hkept
    exact Nat.lt_irrefl _ (NotifierCall.id_lt_of_mem_given (NotifierCall.mem_held_iff.mp hkept).1)
  case handles => rfl
  case registered => exact Notifier.entries_insertInto_perm ..
  case waits => exact hbooks.numbered.isTriggered_listen_self block
  case others =>
    intro other hother
    rw [← hheld] at hother
    exact (hbooks.registers other hother).isTriggered_listen block

theorem Kept.removes (h : s.Kept) {listener : Listener BlockId} (hkept : listener ∈ s.handles) :
    Removes listener s (s.perform (.dropListener listener)) := by
  simp only [AcceptanceRun.perform, if_pos hkept]
  obtain ⟨calls, -, hbooks, hheld⟩ := h
  constructor
  case handles => rfl
  case registered => exact Notifier.entries_removeFrom hbooks.tidy.keys_nodup ..
  case others =>
    intro other hother
    obtain ⟨hold, hne⟩ := List.mem_filter.mp hother
    rw [← hheld] at hold hkept
    exact Notifier.isTriggered_drop
      (NotifierCall.id_ne_of_mem_held hold hkept (of_decide_eq_true hne))

theorem Kept.signals (h : s.Kept) {block : BlockId}
    (hwaiting : s'.waiting = s.waiting.signalBlock block) (hhandles : s'.handles = s.handles)
    (hinvoked : s'.invoked = s.invoked) : Signals block s s' where
  handles := hhandles
  registered := by
    rw [hwaiting]
    exact Notifier.table_fire ..
  signalled := by
    intro listener hkept
    obtain ⟨calls, -, hbooks, hheld⟩ := h
    rw [← hheld] at hkept
    rw [hwaiting]
    exact (hbooks.registers listener hkept).isTriggered_notify_eq hbooks.numbered block
  slotListeners := hwaiting ▸ rfl
  callbacks := ⟨hwaiting ▸ rfl, hinvoked⟩

theorem Kept.framed (h : s.Kept) : s.Framed where
  registered := by
    obtain ⟨calls, -, hbooks, hheld⟩ := h
    rw [← hheld]
    exact hbooks.entries_perm
  sameCallbacks _ := sameCallbacks_perform
  sameListeners _ := sameListeners_perform
  enterCallback := by
    intro block callback
    refine ⟨leaves_enterCallback callback, fun hpending => ?_⟩
    rw [AcceptanceRun.perform, Acceptance.enterCallback_of_pending hpending]
  withdraw := leaves_withdraw
  clear := ⟨rfl, rfl⟩
  enterListener := h.adds
  dropListener _ hkept := h.removes hkept
  unaccepted := by
    intro answer hanswer
    constructor
    · obtain ⟨hsame, hnone⟩ := Acceptance.answerCallback_of_unaccepted hanswer s.waiting
      simp [AcceptanceRun.perform, hsame, hnone]
    · intro block
      simp [AcceptanceRun.perform, Acceptance.answerListener_of_unaccepted hanswer]
  answerCallback := by
    intro metadata haccepted
    obtain ⟨hwaiting, hinvoked⟩ := Acceptance.answerCallback_of_accepted haccepted s.waiting
    let invokes := fun ran : Option (Invocation β) => s.invoked ++ ran.toList
    exact calls_runCallback hwaiting (congrArg invokes hinvoked) rfl
  answerListener := by
    intro block metadata haccepted
    exact h.signals (Acceptance.answerListener_of_accepted haccepted block s.waiting) rfl rfl
  take := by
    intro metadata rest hpassage hstream
    simp [AcceptanceRun.perform, hpassage, hstream]
  call := by
    intro metadata hpassage
    simp only [AcceptanceRun.perform, hpassage]
    exact calls_runCallback rfl rfl rfl
  signal := by
    intro metadata hpassage
    simp only [AcceptanceRun.perform, hpassage]
    exact h.signals rfl rfl rfl
  announce := by
    intro metadata hpassage
    simp only [AcceptanceRun.perform, hpassage]
  silent _ := announced_perform

/-- After any moments, in any order: the event was fired for the messages of the stream that were
passed on, once each and in order, and the next moment does what it is there for and no more. -/
theorem framed_after (moments : List (AcceptanceMoment β)) :
    (after moments).announced ++ (after moments).passage.message?.toList ++
        (after moments).stream = moments.filterMap AcceptanceMoment.reported? ∧
      (after moments).Framed :=
  ⟨announced_after moments, (kept_after moments).framed⟩

/-- A listener is told by the answer to its query, and the callback only by the stream, which fires
the event. -/
theorem framed_after_listenerToldFirst :
    let block : BlockId := .empty
    let metadata : BlockMetadata := ⟨block, .accepted, none⟩
    let entered :=
      [.enterCallback block 7, .enterListener block, .answerListener block (.ok metadata)]
    let s : AcceptanceRun Nat := after entered
    let taken : AcceptanceRun Nat := after (entered ++ [.report metadata, .take])
    let told : AcceptanceRun Nat :=
      after (entered ++ [.report metadata, .take, .call, .signal, .announce])
    (s.waiting.blockListeners.isTriggered ⟨block, 0⟩ = true ∧ s.waiting.pending = 1 ∧
      s.invoked = [] ∧ s.announced = []) ∧
    (taken.passage = .taken metadata ∧ Calls metadata taken (taken.perform .call) ∧
      (taken.perform .call).invoked = [⟨7, metadata⟩]) ∧
    (Adds ⟨block, 1⟩ told (told.perform (.enterListener block)) ∧
      Leaves block (some 8) told (told.perform (.enterCallback block 8))) ∧
    told.announced = [metadata] := by
  intro block metadata entered s taken told
  obtain ⟨-, htaken⟩ := framed_after (entered ++ [.report metadata, .take])
  obtain ⟨htold, hframed⟩ :=
    framed_after (entered ++ [.report metadata, .take, .call, .signal, .announce])
  have hcalls : Calls metadata taken (taken.perform .call) := htaken.call metadata rfl
  refine ⟨⟨by decide, rfl, rfl, rfl⟩, ⟨rfl, hcalls, hcalls.invoked⟩,
    ⟨hframed.enterListener block, (hframed.enterCallback block 8).1 rfl⟩, ?_⟩
  have hpassed : told.passage.message?.toList ++ told.stream = [] := rfl
  change told.announced ++ told.passage.message?.toList ++ told.stream = [metadata] at htold
  rwa [List.append_assoc, hpassed, List.append_nil] at htold

/-! ## The client -/

/-- What a client's watcher and its report tell of those who wait, between two messages. -/
def ofClient (watcher : ClientRehearsal.Watcher) (report : ClientRehearsal.Report) :
    AcceptanceRun String where
  waiting := watcher.acceptance
  invoked := report.invocations
  announced := report.notices.filterMap fun
    | .accepted metadata => some metadata
    | .status _ => none

/-- The moments of one message from the stream. -/
def delivery (metadata : BlockMetadata) : List (AcceptanceMoment String) :=
  [.report metadata, .take, .call, .signal, .announce]

open ClientRehearsal in
/-- The current watcher of a client deals with a message in these moments. -/
theorem ofClient_consumeAccepted {c : State} {i : Nat} {watcher : Watcher}
    (hwatcher : c.watchers[i]? = some watcher) (hcurrent : c.currentWatcher = some i)
    (metadata : BlockMetadata) :
    ∃ c' watcher', c.consumeAccepted i metadata = (c', .ok ()) ∧ c'.watchers[i]? = some watcher' ∧
      c'.currentWatcher = some i ∧ ofClient watcher' c'.report =
        (delivery metadata).foldl perform (ofClient watcher c.report) := by
  refine ⟨_, { watcher with acceptance := (watcher.acceptance.deliver metadata).1 },
    by rw [State.consumeAccepted, hwatcher], ?_, ?_, ?_⟩
  · simp [State.modifyWatcher, State.invoked, State.notice, hcurrent, hwatcher]
  · simp [State.modifyWatcher, State.invoked, State.notice, hcurrent]
  · simp [ofClient, delivery, perform, State.modifyWatcher, State.invoked, State.notice, hcurrent,
      Acceptance.deliver]

end AcceptanceRun

end LedgerWatch
