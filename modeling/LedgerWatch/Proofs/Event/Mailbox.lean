import LedgerWatch.Event.Broadcast
import Mathlib.Data.List.Induction

/-!
# The mailbox of a subscription

What a subscription receives can be told from its own point of view: payloads come, from time to
time it asks for one, and at some time the event goes away. It is as if the subscription had a
mailbox to itself, from which the oldest payloads fall out when there is no room for more.

## Main definitions

- `Sight`: what a subscription notices of its event
- `Mailbox`: the unread payloads and the answers given
- `Mailbox.after`: the mailbox of a new subscription after what it has noticed

## Main results

- `Mailbox.exists_passed`: payloads are received in the order in which they come, each at most once
- `Mailbox.retained_eq_drop`: there is room for the last payloads that came
- `Mailbox.received_append_unread`: nothing is lost while there is room for all that is unread
- `Mailbox.exists_given`: when the event is gone, what there is room for is received first

## Implementation notes

Payloads without room are not thrown away when the next ones come but when the subscription asks
again. Until then they count as unread, so a mailbox never depends on how often it is looked at.
-/

namespace LedgerWatch

theorem filterMap_concat {α γ : Type} (f : α → Option γ) (xs : List α) (x : α) :
    (xs ++ [x]).filterMap f = xs.filterMap f ++ (f x).toList := by
  rw [List.filterMap_append]
  cases hx : f x <;> simp [hx]

/-- The payload received, if there is one. -/
def Received.payload? {α : Type} : Received α → Option α
  | payload a => some a
  | pending | closed => none

/-- What a subscription notices of its event. -/
inductive Sight (α : Type) where
  | came (payload : α)
  /-- The subscription asks for a payload. -/
  | asked
  /-- The event goes away. -/
  | ended

namespace Sight

variable {α : Type}

def payload? : Sight α → Option α
  | came a => some a
  | asked | ended => none

/-- The payloads that came, oldest first. -/
def payloads (sights : List (Sight α)) : List α := sights.filterMap payload?

@[simp]
theorem payloads_concat (sights : List (Sight α)) (sight : Sight α) :
    payloads (sights ++ [sight]) = payloads sights ++ sight.payload?.toList :=
  filterMap_concat payload? sights sight

end Sight

/-- What has come for a subscription, and what it was answered. -/
structure Mailbox (α : Type) where
  /-- The payloads neither received nor passed over, oldest first. -/
  unread : List α := []
  /-- Whether the event is gone. -/
  ended : Bool := false
  /-- The answers to the subscription, oldest first. -/
  answers : List (Received α) := []

namespace Mailbox

variable {α : Type}

/-- The unread payloads that there is room for, the newest ones. -/
def retained (room : Nat) (box : Mailbox α) : List α := box.unread.drop (box.unread.length - room)

/-- The answer to a subscription that asks: the oldest payload there is room for. -/
def answer (room : Nat) (box : Mailbox α) : Received α :=
  match box.retained room with
  | a :: _ => .payload a
  | [] => if box.ended then .closed else .pending

/-- Older payloads than the one in the answer are passed over. -/
def see (room : Nat) (box : Mailbox α) : Sight α → Mailbox α
  | .came a => { box with unread := box.unread ++ [a] }
  | .asked =>
    { box with
      unread := (box.retained room).tail
      answers := box.answers ++ [box.answer room] }
  | .ended => { box with ended := true }

/-- The mailbox of a new subscription after what it has noticed. -/
def after (room : Nat) (sights : List (Sight α)) : Mailbox α := sights.foldl (see room) {}

/-- The payloads among the answers. -/
def received (box : Mailbox α) : List α := box.answers.filterMap Received.payload?

variable {room : Nat} {sights later : List (Sight α)} {box : Mailbox α}

@[simp]
theorem after_concat (room : Nat) (sights : List (Sight α)) (sight : Sight α) :
    after room (sights ++ [sight]) = (after room sights).see room sight := by
  simp [after]

theorem length_retained_le (room : Nat) (box : Mailbox α) : (box.retained room).length ≤ room := by
  rw [retained, List.length_drop]
  omega

theorem unread_asked (room : Nat) (box : Mailbox α) :
    (box.see room .asked).unread = (box.retained room).tail :=
  rfl

/-- An answer takes the first of the payloads that there is room for. -/
theorem retained_asked (room : Nat) (box : Mailbox α) :
    (box.see room .asked).retained room = (box.retained room).tail := by
  have hroom := length_retained_le room box
  have hfits : (box.retained room).tail.length - room = 0 := by
    rw [List.length_tail]
    omega
  rw [retained, unread_asked, hfits, List.drop_zero]

/-- The payload in an answer is the first one that there is room for. -/
theorem received_asked (room : Nat) (box : Mailbox α) :
    (box.see room .asked).received = box.received ++ (box.retained room).head?.toList := by
  have hanswer : (box.answer room).payload? = (box.retained room).head? := by
    cases hretained : box.retained room with
    | nil => cases hended : box.ended <;> simp [answer, hretained, hended, Received.payload?]
    | cons a rest => simp [answer, hretained, Received.payload?]
  rw [← hanswer]
  exact filterMap_concat Received.payload? box.answers (box.answer room)

theorem head?_append_tail (xs : List α) : xs.head?.toList ++ xs.tail = xs := by
  cases xs <;> rfl

/-- What came is what is unread and, before that, what was received or passed over. What was
received is in the same order as it came. -/
theorem exists_passed (room : Nat) (sights : List (Sight α)) :
    ∃ passed, Sight.payloads sights = passed ++ (after room sights).unread ∧
      (after room sights).received.Sublist passed := by
  induction sights using List.reverseRecOn with
  | nil => exact ⟨[], rfl, List.Sublist.slnil⟩
  | append_singleton sights sight ih =>
    obtain ⟨passed, hcame, hreceived⟩ := ih
    rw [after_concat, Sight.payloads_concat, hcame]
    generalize after room sights = box at hcame hreceived
    cases sight with
    | came a => exact ⟨passed, by simp [see, Sight.payload?], hreceived⟩
    | ended => exact ⟨passed, by simp [see, Sight.payload?], hreceived⟩
    | asked =>
      let skipped := box.unread.take (box.unread.length - room)
      have hunread : skipped ++ ((box.retained room).head?.toList ++ (box.retained room).tail) =
          box.unread := by
        rw [head?_append_tail]
        exact List.take_append_drop _ _
      refine ⟨passed ++ (skipped ++ (box.retained room).head?.toList), ?_, ?_⟩
      · rw [unread_asked, ← hunread]
        simp [Sight.payload?]
      · rw [received_asked]
        exact hreceived.append (List.sublist_append_right _ _)

/-- There is room for the unread payloads among the last ones that came. -/
theorem retained_eq_drop (room : Nat) {payloads passed : List α}
    (h : payloads = passed ++ box.unread) :
    box.retained room = payloads.drop (max passed.length (payloads.length - room)) := by
  have hlength : payloads.length = passed.length + box.unread.length := by
    rw [h, List.length_append]
  have hunread : box.unread = payloads.drop passed.length := by rw [h, List.drop_left]
  rw [retained, hlength, hunread, List.drop_drop, List.length_drop, hlength]
  congr 1
  omega

/-- Nothing is passed over while there is room for all that is unread. -/
theorem received_append_unread
    (hroom : ∀ before later, sights = before ++ .asked :: later →
      (after room before).unread.length ≤ room) :
    (after room sights).received ++ (after room sights).unread = Sight.payloads sights := by
  induction sights using List.reverseRecOn with
  | nil => rfl
  | append_singleton sights sight ih =>
    have hall := ih fun before later hsplit =>
      hroom before (later ++ [sight]) (by rw [hsplit, List.append_assoc, List.cons_append])
    have hlast : sight = .asked → (after room sights).unread.length ≤ room := by
      rintro rfl
      exact hroom sights [] rfl
    rw [after_concat, Sight.payloads_concat, ← hall]
    generalize after room sights = box at hlast
    cases sight with
    | came a => simp [see, received, Sight.payload?]
    | ended => simp [see, received, Sight.payload?]
    | asked =>
      have hretained : box.retained room = box.unread := by
        rw [retained, Nat.sub_eq_zero_of_le (hlast rfl), List.drop_zero]
      rw [received_asked, unread_asked, hretained, List.append_assoc, head?_append_tail]
      exact (List.append_nil _).symm

/-- When the event is gone, the payloads that there is room for are received one after the other.
Then the subscription is told that the event is gone. -/
theorem exists_given (room : Nat) (hended : box.ended = true) (hnone : Sight.payloads later = []) :
    ∃ given, (later.foldl (see room) box).answers = box.answers ++ given ∧
      ∀ (i : Nat) (answer : Received α), given[i]? = some answer →
        answer = (box.retained room)[i]?.elim .closed .payload := by
  induction later generalizing box with
  | nil => exact ⟨[], by simp, by simp⟩
  | cons sight later ih =>
    cases sight with
    | came a => simp [Sight.payloads, Sight.payload?] at hnone
    | ended =>
      have hstays : (box.see room .ended).ended = true := rfl
      exact ih hstays hnone
    | asked =>
      have hstays : (box.see room .asked).ended = true := hended
      obtain ⟨given, hanswers, hgiven⟩ := ih hstays hnone
      refine ⟨box.answer room :: given, ?_, ?_⟩
      · rw [List.foldl_cons, hanswers]
        simp [see]
      · intro i answer hi
        cases i with
        | zero =>
          obtain rfl : box.answer room = answer := by simpa using hi
          cases hretained : box.retained room <;> simp [Mailbox.answer, hretained, hended]
        | succ i =>
          rw [hgiven i answer (by simpa using hi), retained_asked, List.getElem?_tail]

end Mailbox

end LedgerWatch
