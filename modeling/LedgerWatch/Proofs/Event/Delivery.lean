import LedgerWatch.Proofs.Event.Readers

/-!
# What subscriptions receive

Each subscription of an event is served as if it had the event to itself. Other subscriptions, hooks
and what hooks do to the event play no role, apart from the payloads that they trigger.

## Main definitions

- `DeliveryStory.after`: what any uses make of a new event
- `DeliveryNote.Served`: what a subscription may rely on

## Main results

- `DeliveryStory.kept_after`: the channel is what the notes say, after any uses
- `DeliveryNote.served_of_answered`: what follows from being answered as by a mailbox
- `DeliveryStory.served_after`: what every subscription may rely on

## Implementation notes

A trigger hands over its payload after its hooks have run, and that is when it is written down. The
order in which payloads are triggered is therefore that of the ends of the triggers, which matters
only for triggers inside hooks.
-/

namespace LedgerWatch

/-! ## The story of an event -/

/-- What is done by those who hold an event, its hooks and its subscriptions. -/
inductive EventUse (β α : Type) where
  | act (action : EventAction β α)
  /-- The event is dropped. -/
  | drop

/-- Whether an action is one on the event itself, and not on a handle that was given out. -/
def EventAction.needsEvent {β α : Type} : EventAction β α → Bool
  | hook _ | subscribe | trigger _ => true
  | unhook _ | unsubscribe _ | receive _ => false

/-- An event and what happened to its subscriptions. -/
structure DeliveryStory (β α : Type) where
  event : Event β α
  notes : List (DeliveryNote α) := []

namespace DeliveryStory

variable {β α : Type}

def note (what : DeliveryNote α) (s : DeliveryStory β α) : DeliveryStory β α :=
  { s with notes := s.notes ++ [what] }

def hook (body : β) (s : DeliveryStory β α) : DeliveryStory β α :=
  { s with event := { s.event with hooks := (s.event.hooks.register body).1 } }

def unhook (id : Nat) (s : DeliveryStory β α) : DeliveryStory β α :=
  { s with event := { s.event with hooks := s.event.hooks.drop id } }

def subscribe (s : DeliveryStory β α) : DeliveryStory β α :=
  let (channel, id) := s.event.channel.subscribe
  note (.subscribed id) { s with event := { s.event with channel } }

def unsubscribe (id : Nat) (s : DeliveryStory β α) : DeliveryStory β α :=
  note (.unsubscribed id)
    { s with event := { s.event with channel := s.event.channel.unsubscribe id } }

def receive (id : Nat) (s : DeliveryStory β α) : DeliveryStory β α :=
  let (channel, answer) := s.event.channel.receive id
  note (.received id answer) { s with event := { s.event with channel } }

def drop (s : DeliveryStory β α) : DeliveryStory β α :=
  note .dropped { s with event := s.event.close }

/-- An action that does not trigger the event. -/
def handle (action : EventAction β α) (s : DeliveryStory β α) : DeliveryStory β α :=
  match action with
  | .hook body => s.hook body
  | .unhook id => s.unhook id
  | .subscribe => s.subscribe
  | .unsubscribe id => s.unsubscribe id
  | .receive id => s.receive id
  | .trigger _ => s

section Use

-- what a body does when it runs: actions in order, each chosen when its turn comes
variable (behave : β → α → List (DeliveryStory β α → EventAction β α))

/-- A hook runs, given how actions are performed. -/
def runHook (perform : EventAction β α → DeliveryStory β α → DeliveryStory β α) (body : β) (a : α)
    (s : DeliveryStory β α) : DeliveryStory β α :=
  (behave body a).foldl (fun s choose => perform (choose s) s) s

/-- Triggers the event, given how the actions of its hooks are performed. -/
def trigger (perform : EventAction β α → DeliveryStory β α → DeliveryStory β α) (a : α)
    (s : DeliveryStory β α) : DeliveryStory β α :=
  note (.triggered a)
    (Event.trigger (runHook behave perform) event (fun event s => { s with event }) a s).1

/-- Performs an action, with triggers inside triggers up to a depth. -/
def perform : (depth : Nat) → EventAction β α → DeliveryStory β α → DeliveryStory β α
  | 0 => handle
  | depth + 1 => fun action s =>
    match action with
    | .trigger a => s.trigger behave (perform depth) a
    | action => s.handle action

/-- The event can be used until it is dropped, and what it gave out also after that. -/
def use (depth : Nat) (s : DeliveryStory β α) : EventUse β α → DeliveryStory β α
  | .act action =>
    if s.event.channel.closed && action.needsEvent then s else perform behave depth action s
  | .drop => if s.event.channel.closed then s else s.drop

/-- What uses make of a new event. -/
def after (depth wanted : Nat) (uses : List (EventUse β α)) : DeliveryStory β α :=
  uses.foldl (use behave depth) { event := .ofCapacity wanted }

end Use

/-- The channel of the event is what the notes say. -/
def Kept (room : Nat) (s : DeliveryStory β α) : Prop := s.event.channel.Kept room s.notes

/-- The event is there, and its channel is what the notes say. -/
structure Open (room : Nat) (s : DeliveryStory β α) : Prop where
  kept : s.Kept room
  closed : s.event.channel.closed = false

variable {room : Nat} {s : DeliveryStory β α}
  {behave : β → α → List (DeliveryStory β α → EventAction β α)}

theorem Open.subscribe (h : s.Open room) : s.subscribe.Open room :=
  ⟨h.kept.subscribe h.closed, h.closed⟩

theorem Kept.unsubscribe (h : s.Kept room) (id : Nat) : (s.unsubscribe id).Kept room :=
  Broadcast.Kept.unsubscribe h id

theorem Kept.receive (h : s.Kept room) (id : Nat) : (s.receive id).Kept room :=
  Broadcast.Kept.receive h id

theorem Kept.drop (h : s.Kept room) : s.drop.Kept room :=
  Broadcast.Kept.close h

theorem Open.receive (h : s.Open room) (id : Nat) : (s.receive id).Open room :=
  ⟨h.kept.receive id, (Broadcast.closed_receive id s.event.channel).trans h.closed⟩

theorem Open.handle (h : s.Open room) (action : EventAction β α) : (s.handle action).Open room := by
  cases action with
  | subscribe => exact h.subscribe
  | unsubscribe id => exact ⟨h.kept.unsubscribe id, h.closed⟩
  | receive id => exact h.receive id
  -- hooks are not in the channel
  | hook | unhook | trigger => exact ⟨h.kept, h.closed⟩

/-- What the hooks do keeps the channel what the notes say, and then the payload is sent. -/
theorem Open.trigger {perform : EventAction β α → DeliveryStory β α → DeliveryStory β α}
    (hperform : ∀ s action, Open room s → Open room (perform action s)) (h : s.Open room) (a : α) :
    (s.trigger behave perform a).Open room := by
  let ran := s.event.hooks.entries.foldl (fun s hook => runHook behave perform hook.2 a s) s
  have hran : ran.Open room := by
    refine List.foldlRecOn _ _ h fun s hopen hook _ => ?_
    exact List.foldlRecOn _ _ hopen fun s hopen choose _ => hperform s (choose s) hopen
  refine ⟨hran.kept.send hran.closed a, ?_⟩
  show (ran.event.channel.send a).1.closed = false
  rw [Broadcast.closed_send]
  exact hran.closed

theorem Open.perform (h : s.Open room) (depth : Nat) (action : EventAction β α) :
    (DeliveryStory.perform behave depth action s).Open room := by
  induction depth generalizing action s with
  | zero => exact h.handle action
  | succ depth ih =>
    cases action with
    -- what the hooks do is one level less deep
    | trigger a => exact h.trigger (fun s action hopen => ih hopen action) a
    | hook body => exact h.handle (.hook body)
    | unhook id => exact h.handle (.unhook id)
    | subscribe => exact h.handle .subscribe
    | unsubscribe id => exact h.handle (.unsubscribe id)
    | receive id => exact h.handle (.receive id)

theorem perform_of_not_needsEvent {action : EventAction β α} (haction : action.needsEvent = false)
    (depth : Nat) (s : DeliveryStory β α) : perform behave depth action s = s.handle action := by
  cases action with
  | hook | subscribe | trigger => cases haction
  | unhook | unsubscribe | receive => cases depth <;> rfl

theorem Kept.handle (h : s.Kept room) {action : EventAction β α}
    (haction : action.needsEvent = false) : (s.handle action).Kept room := by
  cases action with
  | hook | subscribe | trigger => cases haction
  | unhook => exact h
  | unsubscribe id => exact h.unsubscribe id
  | receive id => exact h.receive id

theorem Kept.use (h : s.Kept room) (depth : Nat) (use : EventUse β α) :
    (DeliveryStory.use behave depth s use).Kept room := by
  cases hclosed : s.event.channel.closed with
  | false =>
    have hopen : s.Open room := ⟨h, hclosed⟩
    cases use with
    | act action => simpa [DeliveryStory.use, hclosed] using (hopen.perform depth action).kept
    | drop => simpa [DeliveryStory.use, hclosed] using h.drop
  | true =>
    cases use with
    | drop => simpa [DeliveryStory.use, hclosed] using h
    | act action =>
      cases haction : action.needsEvent with
      | true => simpa [DeliveryStory.use, hclosed, haction] using h
      | false =>
        simpa [DeliveryStory.use, hclosed, haction, perform_of_not_needsEvent haction] using
          h.handle haction

/-- Every subscription has its mailbox, whatever is done with the event. -/
theorem kept_after (behave : β → α → List (DeliveryStory β α → EventAction β α))
    (depth wanted : Nat) (uses : List (EventUse β α)) :
    (after behave depth wanted uses).Kept (Broadcast.roomFor wanted) :=
  List.foldlRecOn uses (use behave depth) (Broadcast.kept_ofCapacity wanted)
    fun _ hkept action _ => hkept.use depth action

end DeliveryStory

/-! ## What a subscription may rely on -/

namespace DeliveryNote

variable {α : Type} {room id : Nat} {notes during : List (DeliveryNote α)}

/-- What a subscription may rely on while it is held, with room for some payloads. -/
structure Served (room id : Nat) (during : List (DeliveryNote α)) : Prop where
  /-- It is served as if it had the event to itself. -/
  alone : answersTo id during = (Mailbox.after room (sights id during)).answers
  /-- It is answered with the oldest unread payload that there is room for. -/
  oldest : ∀ before answer later, during = before ++ .received id answer :: later →
    answer = (Mailbox.after room (sights id before)).answer room
  /-- It receives what was triggered since it was made, in that order, and nothing twice. There is
  room for the last payloads triggered, as far as they are unread. -/
  ordered : ∃ passed,
    triggeredIn during = passed ++ (Mailbox.after room (sights id during)).unread ∧
      ((answersTo id during).filterMap Received.payload?).Sublist passed ∧
      (Mailbox.after room (sights id during)).retained room =
        (triggeredIn during).drop (max passed.length ((triggeredIn during).length - room))
  /-- It loses nothing while there is room for all that is unread. -/
  complete :
    (∀ before answer later, during = before ++ .received id answer :: later →
      (Mailbox.after room (sights id before)).unread.length ≤ room) →
    (answersTo id during).filterMap Received.payload? ++
      (Mailbox.after room (sights id during)).unread = triggeredIn during
  /-- When the event is dropped, it receives all that there is room for. -/
  drained : ∀ before later, during = before ++ .dropped :: later →
    ∀ (i : Nat) (answer : Received α), (answersTo id later)[i]? = some answer →
      answer = ((Mailbox.after room (sights id before)).retained room)[i]?.elim .closed .payload

/-- When a subscription noticed that it asked, it was answered. -/
theorem exists_received {before later : List (Sight α)}
    (h : sights id during = before ++ .asked :: later) :
    ∃ earlier answer rest, during = earlier ++ .received id answer :: rest ∧
      sights id earlier = before := by
  obtain ⟨first, second, rfl, hfirst, hsecond⟩ := List.filterMap_eq_append_iff.mp h
  obtain ⟨unseen, note, rest, rfl, hunseen, hnote, -⟩ := List.filterMap_eq_cons_iff.mp hsecond
  have hearlier : sights id (first ++ unseen) = before := by
    rw [sights, List.filterMap_append, hfirst, List.filterMap_eq_nil_iff.mpr hunseen,
      List.append_nil]
  cases note with
  | received reader answer =>
    obtain ⟨rfl, -⟩ : reader = id ∧ True := by simpa using hnote
    exact ⟨first ++ unseen, answer, rest, (List.append_assoc ..).symm, hearlier⟩
  | _ => cases hnote

/-- A subscription that was answered as its mailbox would have, at all times, is served. -/
theorem served_of_answered
    (h : ∀ first second, during = first ++ second → Answered room id first)
    (hquiet : during.Pairwise fun first second => first = .dropped → second.payload? = none) :
    Served room id during := by
  have hall : Answered room id during := h during [] (List.append_nil _).symm
  have hreceived : (answersTo id during).filterMap Received.payload? =
      (Mailbox.after room (sights id during)).received := by rw [Mailbox.received, ← hall]
  constructor
  case alone => exact hall
  case oldest =>
    rintro before answer later rfl
    have hbefore : Answered room id before := h before _ rfl
    have hthen : Answered room id (before ++ [.received id answer]) := h _ later (by simp)
    have hnotice : sight? id (.received id answer) = some .asked := if_pos rfl
    rw [Answered, answersTo_concat, hbefore, after_sights_concat room before hnotice] at hthen
    have hanswer := List.append_cancel_left hthen
    simpa using hanswer
  case ordered =>
    obtain ⟨passed, hcame, hsublist⟩ := Mailbox.exists_passed room (sights id during)
    rw [payloads_sights] at hcame
    exact ⟨passed, hcame, hreceived ▸ hsublist, Mailbox.retained_eq_drop room hcame⟩
  case complete =>
    intro hroom
    rw [hreceived, Mailbox.received_append_unread, payloads_sights]
    intro before later hsplit
    obtain ⟨earlier, answer, rest, hduring, rfl⟩ := exists_received hsplit
    exact hroom earlier answer rest hduring
  case drained =>
    rintro before later rfl
    have hbefore : Answered room id before := h before _ rfl
    have hnone : Sight.payloads (sights id later) = [] := by
      rw [payloads_sights, triggeredIn, List.filterMap_eq_nil_iff]
      intro note hnote
      exact List.rel_of_pairwise_cons (List.pairwise_append.mp hquiet).2.1 hnote rfl
    have hsights : Mailbox.after room (sights id (before ++ .dropped :: later)) =
        (sights id later).foldl (Mailbox.see room)
          ((Mailbox.after room (sights id before)).see room .ended) := by
      simp [sights, Mailbox.after]
    have hended : ((Mailbox.after room (sights id before)).see room .ended).ended = true := rfl
    obtain ⟨given, hanswers, hgiven⟩ := Mailbox.exists_given room hended hnone
    have hsplit : answersTo id (before ++ .dropped :: later) =
        answersTo id before ++ answersTo id later := List.filterMap_append
    have hlater : answersTo id before ++ answersTo id later = answersTo id before ++ given := by
      rw [← hsplit, hall, hsights, hanswers, hbefore]
      rfl
    rw [List.append_cancel_left hlater]
    exact hgiven

end DeliveryNote

namespace DeliveryStory

open DeliveryNote

/-- Whatever is done with an event, inside its hooks and outside, and until it is dropped and after
that, every subscription is served with room for the payloads wanted, as long as it is held. -/
theorem served_after {β α : Type} (behave : β → α → List (DeliveryStory β α → EventAction β α))
    (depth wanted : Nat) (uses : List (EventUse β α)) :
    ((Broadcast.roomFor wanted).isPowerOfTwo ∧ max wanted 1 ≤ Broadcast.roomFor wanted ∧
      ∀ n, n.isPowerOfTwo → max wanted 1 ≤ n → Broadcast.roomFor wanted ≤ n) ∧
    ((after behave depth wanted uses).notes.filterMap subscribed?).Nodup ∧
    ∀ earlier id during, earlier <+: (after behave depth wanted uses).notes →
      Since earlier id during → Served (Broadcast.roomFor wanted) id during := by
  have hkept := kept_after behave depth wanted uses
  refine ⟨Broadcast.isLeast_roomFor wanted, ?_, fun earlier id during hprefix hsince => ?_⟩
  · rw [hkept.numbers]
    exact List.nodup_range
  · refine served_of_answered ?_ ?_
    · rintro first second rfl
      obtain ⟨past, hpast, hfirst⟩ := hsince.of_append
      exact hkept.answered past id first (hpast.trans hprefix) hfirst
    · exact hkept.quiet.sublist (hsince.isSuffix.sublist.trans hprefix.sublist)

/-- A subscription leaves five payloads unread, and asks once before the event is dropped and twice
after that. -/
def fiveUnread : List (EventUse Unit Nat) :=
  [.act .subscribe, .act (.trigger 0), .act (.trigger 1), .act (.trigger 2), .act (.trigger 3),
    .act (.trigger 4), .act (.receive 0), .drop, .act (.receive 0), .act (.receive 0)]

-- there is room for two of the payloads
theorem served_after_fiveUnread :
    ∃ during, Since (after (fun _ _ => []) 1 2 fiveUnread).notes 0 during ∧
      Served (Broadcast.roomFor 2) 0 during ∧
      answersTo 0 during = [.payload 3, .payload 4, .closed] := by
  let during : List (DeliveryNote Nat) :=
    [.triggered 0, .triggered 1, .triggered 2, .triggered 3, .triggered 4,
      .received 0 (.payload 3), .dropped, .received 0 (.payload 4), .received 0 .closed]
  have hnotes : (after (fun _ _ => []) 1 2 fiveUnread).notes = .subscribed 0 :: during := by rfl
  have hsince : Since (after (fun _ _ => []) 1 2 fiveUnread).notes 0 during :=
    ⟨⟨[], hnotes⟩, by simp [during]⟩
  have hserved := (served_after (fun _ _ => []) 1 2 fiveUnread).2.2 _ 0 during List.prefix_rfl hsince
  exact ⟨during, hsince, hserved, by rfl⟩

end DeliveryStory

end LedgerWatch
