import LedgerWatch.Event
import Mathlib.Data.List.Nodup

/-!
# Histories of an event

What happens to an event is written down, oldest first: hooks and subscriptions come and go, and
triggers begin, run hooks and end. From these notes alone it can be said which hooks are registered
and which subscriptions are alive. Hooks act on the event they run for, so what one trigger does may
stand between the beginning and the end of another.

## Main definitions

- `EventAction`: what is done to an event
- `EventNote`: what happens to it
- `EventNote.hooksAfter`, `EventNote.subscriptionsAfter`: what is there after some notes
- `EventNote.runsOf`: the hooks that a trigger ran
- `EventStory`, `EventStory.after`: an event with its notes, and what actions make of a new one
- `EventStory.Tells`: what is written down of an action

## Main results

- `EventNote.standing_append`, `EventNote.hooksAfter_concat`: what is there after further notes
- `EventNote.fst_ne_of_unhooked`: a hook that was dropped is not there
-/

namespace LedgerWatch

/-- What is done to an event, from outside or by one of its hooks. To unhook is to drop the handle
of a hook. -/
inductive EventAction (β α : Type) where
  | hook (body : β)
  | unhook (id : Nat)
  | subscribe
  | unsubscribe (id : Nat)
  | receive (id : Nat)
  | trigger (payload : α)

/-- What happens to an event. Hooks, subscriptions and triggers are told by their numbers. -/
inductive EventNote (β α : Type) where
  | hooked (id : Nat) (body : β)
  | unhooked (id : Nat)
  | subscribed (id : Nat)
  | unsubscribed (id : Nat)
  | began (trigger : Nat) (payload : α)
  | ran (trigger : Nat) (hook : Nat × β) (payload : α)
  | ended (trigger : Nat) (reached : Nat)

namespace EventNote

variable {β α γ : Type}

@[simp]
def hooked? : EventNote β α → Option (Nat × β)
  | hooked id body => some (id, body)
  | _ => none

@[simp]
def subscribed? : EventNote β α → Option Nat
  | subscribed id => some id
  | _ => none

/-- The trigger that a note is about. -/
@[simp]
def trigger? : EventNote β α → Option Nat
  | began t _ | ran t _ _ | ended t _ => some t
  | _ => none

/-- The hook that a trigger ran, with the payload it ran on. -/
@[simp]
def ran? (t : Nat) : EventNote β α → Option ((Nat × β) × α)
  | ran u hook a => if u = t then some (hook, a) else none
  | _ => none

@[simp]
def unhooks (hook : Nat × β) : EventNote β α → Bool
  | unhooked id => hook.1 == id
  | _ => false

@[simp]
def unsubscribes (id : Nat) : EventNote β α → Bool
  | unsubscribed gone => id == gone
  | _ => false

/-- What was opened and not closed later, in the order it was opened. -/
def standing (opened? : EventNote β α → Option γ) (closes : γ → EventNote β α → Bool) :
    List (EventNote β α) → List γ
  | [] => []
  | note :: later =>
    ((opened? note).toList.filter fun x => !later.any (closes x)) ++ standing opened? closes later

/-- The hooks that were registered and not dropped later, oldest first. -/
def hooksAfter (notes : List (EventNote β α)) : List (Nat × β) :=
  standing hooked? unhooks notes

/-- The numbers that hooks were registered under. -/
def hookNumbers (notes : List (EventNote β α)) : List Nat :=
  (notes.filterMap hooked?).map Prod.fst

/-- The subscriptions that were made and did not end later, oldest first. -/
def subscriptionsAfter (notes : List (EventNote β α)) : List Nat :=
  standing subscribed? unsubscribes notes

/-- The hooks that a trigger ran and the payloads they ran on, in the order of the runs. -/
def runsOf (t : Nat) (notes : List (EventNote β α)) : List ((Nat × β) × α) :=
  notes.filterMap (ran? t)

end EventNote

/-- An event and what happened to it. Hooks are kept with their numbers, so that it can be written
down which of them runs. -/
structure EventStory (β α : Type) where
  event : Event (Nat × β) α
  notes : List (EventNote β α) := []
  /-- How many triggers have begun. -/
  triggers : Nat := 0

namespace EventStory

variable {β α : Type}

def note (what : EventNote β α) (s : EventStory β α) : EventStory β α :=
  { s with notes := s.notes ++ [what] }

def hook (body : β) (s : EventStory β α) : EventStory β α :=
  let (hooks, id) := s.event.hooks.register (s.event.hooks.next, body)
  note (.hooked id body) { s with event := { s.event with hooks } }

def unhook (id : Nat) (s : EventStory β α) : EventStory β α :=
  note (.unhooked id) { s with event := { s.event with hooks := s.event.hooks.drop id } }

def subscribe (s : EventStory β α) : EventStory β α :=
  let (channel, id) := s.event.channel.subscribe
  note (.subscribed id) { s with event := { s.event with channel } }

def unsubscribe (id : Nat) (s : EventStory β α) : EventStory β α :=
  note (.unsubscribed id)
    { s with event := { s.event with channel := s.event.channel.unsubscribe id } }

def receive (id : Nat) (s : EventStory β α) : EventStory β α :=
  { s with event := { s.event with channel := (s.event.channel.receive id).1 } }

/-- An action that does not trigger the event. -/
def handle (action : EventAction β α) (s : EventStory β α) : EventStory β α :=
  match action with
  | .hook body => s.hook body
  | .unhook id => s.unhook id
  | .subscribe => s.subscribe
  | .unsubscribe id => s.unsubscribe id
  | .receive id => s.receive id
  | .trigger _ => s

section Trigger

-- what a body does when it runs: actions in order, each chosen when its turn comes
variable (behave : β → α → List (EventStory β α → EventAction β α))

/-- A hook runs for a trigger, given how actions are performed. -/
def runHook (perform : EventAction β α → EventStory β α → EventStory β α) (t : Nat)
    (hook : Nat × β) (a : α) (s : EventStory β α) : EventStory β α :=
  (behave hook.2 a).foldl (fun s choose => perform (choose s) s) (s.note (.ran t hook a))

/-- A trigger begins. -/
def start (a : α) (s : EventStory β α) : EventStory β α :=
  note (.began s.triggers a) { s with triggers := s.triggers + 1 }

/-- Triggers the event, given how the actions of its hooks are performed. -/
def trigger (perform : EventAction β α → EventStory β α → EventStory β α) (a : α)
    (s : EventStory β α) : EventStory β α :=
  let (after, reached) := Event.trigger (runHook behave perform s.triggers) event
    (fun event s => { s with event }) a (s.start a)
  after.note (.ended s.triggers reached)

/-- Performs an action, with triggers inside triggers up to a depth. -/
def perform : (depth : Nat) → EventAction β α → EventStory β α → EventStory β α
  | 0 => handle
  | depth + 1 => fun action s =>
    match action with
    | .trigger a => s.trigger behave (perform depth) a
    | action => s.handle action

/-- Performs actions in order, each chosen when its turn comes. -/
def performAll (depth : Nat) (choices : List (EventStory β α → EventAction β α))
    (s : EventStory β α) : EventStory β α :=
  choices.foldl (fun s choose => perform behave depth (choose s) s) s

/-- What actions make of a new event. -/
def after (depth capacity : Nat) (actions : List (EventAction β α)) : EventStory β α :=
  actions.foldl (fun s action => perform behave depth action s) { event := .ofCapacity capacity }

end Trigger

/-- What is written down of an action on a story once it is performed: a trigger has begun, and has
ended in the end. -/
def Tells (s : EventStory β α) (added : List (EventNote β α)) : EventAction β α → Prop
  | .hook body => added = [.hooked s.event.hooks.next body]
  | .unhook id => added = [.unhooked id]
  | .subscribe => added = [.subscribed s.event.channel.nextSubscription]
  | .unsubscribe id => added = [.unsubscribed id]
  | .receive _ => added = []
  | .trigger a => ∃ during reached,
      added = .began s.triggers a :: (during ++ [.ended s.triggers reached])

end EventStory

/-! ## What is there after some notes -/

namespace EventNote

variable {β α γ : Type} {notes later : List (EventNote β α)}

theorem standing_append (opened? : EventNote β α → Option γ) (closes : γ → EventNote β α → Bool)
    (notes later : List (EventNote β α)) :
    standing opened? closes (notes ++ later) =
      (standing opened? closes notes).filter (fun x => !later.any (closes x)) ++
        standing opened? closes later := by
  induction notes with
  | nil => rfl
  | cons note notes ih =>
    simp [standing, ih, List.any_append, List.filter_filter, Bool.and_comm]

theorem standing_sublist (opened? : EventNote β α → Option γ)
    (closes : γ → EventNote β α → Bool) (notes : List (EventNote β α)) :
    (standing opened? closes notes).Sublist (notes.filterMap opened?) := by
  induction notes with
  | nil => exact List.nil_sublist _
  | cons note notes ih =>
    have hcons : (note :: notes).filterMap opened? =
        (opened? note).toList ++ notes.filterMap opened? := by
      cases hopened : opened? note <;> simp [hopened]
    rw [hcons]
    exact List.filter_sublist.append ih

/-- What was closed is gone, unless it is opened later. -/
theorem mem_standing_of_closed {opened? : EventNote β α → Option γ}
    {closes : γ → EventNote β α → Bool} {x : γ} (hclosed : later.any (closes x) = true)
    (h : x ∈ standing opened? closes (notes ++ later)) : x ∈ standing opened? closes later := by
  rw [standing_append, List.mem_append, List.mem_filter] at h
  rcases h with ⟨-, hopen⟩ | hlater
  · rw [hclosed] at hopen
    cases hopen
  · exact hlater

theorem standing_concat (opened? : EventNote β α → Option γ) (closes : γ → EventNote β α → Bool)
    (notes : List (EventNote β α)) (note : EventNote β α) :
    standing opened? closes (notes ++ [note]) =
      (standing opened? closes notes).filter (fun x => !closes x note) ++
        (opened? note).toList := by
  simp [standing_append, standing]

@[simp]
theorem hooksAfter_concat (notes : List (EventNote β α)) (note : EventNote β α) :
    hooksAfter (notes ++ [note]) =
      (hooksAfter notes).filter (fun hook => !unhooks hook note) ++ note.hooked?.toList :=
  standing_concat hooked? unhooks notes note

@[simp]
theorem subscriptionsAfter_concat (notes : List (EventNote β α)) (note : EventNote β α) :
    subscriptionsAfter (notes ++ [note]) =
      (subscriptionsAfter notes).filter (fun id => !unsubscribes id note) ++
        note.subscribed?.toList :=
  standing_concat subscribed? unsubscribes notes note

theorem hookNumbers_append (notes later : List (EventNote β α)) :
    hookNumbers (notes ++ later) = hookNumbers notes ++ hookNumbers later := by
  simp [hookNumbers]

@[simp]
theorem hookNumbers_concat (notes : List (EventNote β α)) (note : EventNote β α) :
    hookNumbers (notes ++ [note]) = hookNumbers notes ++ (note.hooked?.map Prod.fst).toList := by
  rw [hookNumbers_append]
  cases note <;> rfl

theorem hookNumbers_hooked (id : Nat) (body : β) (later : List (EventNote β α)) :
    hookNumbers (.hooked id body :: later) = id :: hookNumbers later :=
  rfl

theorem hooksAfter_sublist (notes : List (EventNote β α)) :
    ((hooksAfter notes).map Prod.fst).Sublist (hookNumbers notes) :=
  (standing_sublist hooked? unhooks notes).map Prod.fst

theorem fst_mem_hookNumbers {hook : Nat × β} (h : hook ∈ hooksAfter notes) :
    hook.1 ∈ hookNumbers notes :=
  (hooksAfter_sublist notes).mem (List.mem_map_of_mem h)

/-- A hook that was dropped is not registered, as its number is not given out again. -/
theorem fst_ne_of_unhooked {id : Nat} {body : β} {hook : Nat × β}
    (hnumbers : (hookNumbers (notes ++ .hooked id body :: later)).Nodup)
    (hunhooked : .unhooked id ∈ later)
    (h : hook ∈ hooksAfter (notes ++ .hooked id body :: later)) : hook.1 ≠ id := by
  rintro rfl
  have hclosed : later.any (unhooks hook) = true :=
    List.any_eq_true.mpr ⟨_, hunhooked, beq_self_eq_true hook.1⟩
  rw [List.append_cons] at h
  have hlater : hook.1 ∈ hookNumbers later := fst_mem_hookNumbers (mem_standing_of_closed hclosed h)
  rw [hookNumbers_append, hookNumbers_hooked] at hnumbers
  exact (List.nodup_cons.mp hnumbers.of_append_right).1 hlater

@[simp]
theorem runsOf_append (t : Nat) (notes later : List (EventNote β α)) :
    runsOf t (notes ++ later) = runsOf t notes ++ runsOf t later :=
  List.filterMap_append

@[simp]
theorem runsOf_began (t u : Nat) (a : α) (later : List (EventNote β α)) :
    runsOf t (.began u a :: later) = runsOf t later :=
  rfl

@[simp]
theorem runsOf_ended (t u reached : Nat) (later : List (EventNote β α)) :
    runsOf t (.ended u reached :: later) = runsOf t later :=
  rfl

end EventNote

end LedgerWatch
