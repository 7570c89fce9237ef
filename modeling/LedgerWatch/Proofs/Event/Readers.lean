import LedgerWatch.Proofs.Event.Mailbox
import LedgerWatch.Proofs.Event.Snapshot
import LedgerWatch.Table
import Mathlib.Algebra.Group.Nat.Defs

/-!
# The readers of a channel

All subscriptions of an event read from one channel, which keeps a bounded number of payloads. A
position in the channel is a mailbox with room for that many, so every subscription is answered as
if it had a mailbox to itself.

## Main definitions

- `DeliveryNote`: what happens to the subscriptions of an event
- `DeliveryNote.Since`: what happened since a subscription was made, while it is held
- `Broadcast.Carries`: the payloads that went through a channel
- `Broadcast.Reads`: a subscription reads where its mailbox is
- `Broadcast.Kept`: a channel is what the notes say

## Main results

- `Broadcast.isLeast_roomFor`: how many payloads a channel keeps
- `Broadcast.Carries.receiveAt`: a position in a channel is a mailbox
- `Broadcast.Reads.unnoticed`, `Broadcast.Reads.send`, `Broadcast.Reads.receive`: where a subscription
  reads after what it notices, or does not notice
- `Broadcast.Kept.concat`: what is done with a channel keeps it what the notes say

## Implementation notes

A channel does not say which payloads went through it before the ones it keeps, and what is sent
while nobody subscribes never goes through it. So the payloads that did are not read off the notes:
they are any list that ends in what is kept.
-/

namespace LedgerWatch

/-! ## A position in a channel -/

namespace Broadcast

variable {α : Type}

/-- The room of a channel is the least power of two that is no smaller than the number of payloads
wanted, and than one. -/
theorem isLeast_roomFor (wanted : Nat) :
    (roomFor wanted).isPowerOfTwo ∧ max wanted 1 ≤ roomFor wanted ∧
      ∀ n, n.isPowerOfTwo → max wanted 1 ≤ n → roomFor wanted ≤ n := by
  unfold roomFor
  split
  next hsmall => exact ⟨⟨0, rfl⟩, by omega, fun n _ hle => by omega⟩
  next hlarge =>
    have habove : wanted - 1 < 2 ^ ((wanted - 1).log2 + 1) := Nat.lt_log2_self
    refine ⟨⟨_, rfl⟩, ?_, ?_⟩
    · show max wanted 1 ≤ 2 ^ ((wanted - 1).log2 + 1)
      omega
    · rintro n ⟨k, rfl⟩ hle
      have hbelow : wanted - 1 < 2 ^ k := by omega
      exact Nat.pow_le_pow_right (by decide) ((Nat.log2_lt (by omega)).mpr hbelow)

/-- All payloads ever sent, of which the channel keeps the last ones. -/
structure Carries (sent : List α) (c : Broadcast α) : Prop where
  count : c.sent = sent.length
  kept : c.kept = sent.drop (sent.length - c.capacity)

variable {c : Broadcast α} {sent : List α}

theorem carries_ofCapacity (wanted : Nat) : Carries [] (ofCapacity wanted : Broadcast α) :=
  ⟨rfl, List.drop_nil.symm⟩

/-- The oldest payload kept is the first of as many as there is room for. -/
theorem Carries.oldest (h : Carries sent c) : c.oldest = sent.length - c.capacity := by
  rw [Broadcast.oldest, h.count, h.kept, List.length_drop]
  omega

theorem Carries.send (h : Carries sent c) (hheld : c.cursors ≠ []) (a : α) :
    Carries (sent ++ [a]) (c.send a).1 := by
  have hsent : (c.send a).1 = { c with
      sent := c.sent + 1
      kept := (c.kept ++ [a]).drop ((c.kept ++ [a]).length - c.capacity) } := by
    rw [Broadcast.send, if_neg (by simpa using hheld)]
  rw [hsent]
  constructor
  · simp [h.count]
  · have hkept : c.kept ++ [a] = (sent ++ [a]).drop (sent.length - c.capacity) := by
      rw [h.kept, List.drop_append_of_le_length (Nat.sub_le _ _)]
    simp only [hkept, List.drop_drop, List.length_drop, List.length_append, List.length_singleton]
    congr 1
    omega

theorem receiveAt_eq (position : Nat) (c : Broadcast α) :
    c.receiveAt position =
      c.kept[max position c.oldest - c.oldest]?.elim
        (if c.closed then .closed else .pending, max position c.oldest)
        fun a => (.payload a, max position c.oldest + 1) := by
  simp only [receiveAt]
  cases c.kept[max position c.oldest - c.oldest]? <;> rfl

/-- A subscription that reads at a position is answered like one with a mailbox of the payloads from
there on, and reads on where that mailbox is then. -/
theorem Carries.receiveAt (h : Carries sent c) {position : Nat} (hposition : position ≤ sent.length)
    {box : Mailbox α} (hunread : box.unread = sent.drop position) (hended : box.ended = c.closed) :
    (c.receiveAt position).1 = box.answer c.capacity ∧
      (c.receiveAt position).2 ≤ sent.length ∧
      (box.see c.capacity .asked).unread = sent.drop (c.receiveAt position).2 := by
  -- where the subscription reads: behind what it has read, and not before the oldest payload kept
  let start := max position c.oldest
  have hstart : start = max position (sent.length - c.capacity) := by rw [← h.oldest]
  have hretained : box.retained c.capacity = sent.drop start := by
    rw [Mailbox.retained, hunread, List.length_drop, List.drop_drop, hstart]
    congr 1
    omega
  have hkept : c.kept[start - c.oldest]? = (box.retained c.capacity).head? := by
    rw [hretained, List.head?_drop, h.kept, List.getElem?_drop, h.oldest, hstart]
    congr 1
    omega
  have hreceive := receiveAt_eq position c
  rw [hkept] at hreceive
  rw [Mailbox.answer, Mailbox.unread_asked, hended]
  generalize box.retained c.capacity = retained at hretained hreceive
  cases retained with
  | nil =>
    rw [hreceive]
    refine ⟨rfl, ?_, hretained⟩
    show start ≤ sent.length
    omega
  | cons a rest =>
    rw [hreceive]
    refine ⟨rfl, ?_, ?_⟩
    · have hlength := congrArg List.length hretained
      rw [List.length_cons, List.length_drop] at hlength
      show start + 1 ≤ sent.length
      omega
    · show rest = sent.drop (start + 1)
      rw [← List.drop_drop, ← hretained, List.drop_one, List.tail_cons]

end Broadcast

/-! ## What happens to the subscriptions -/

/-- What happens to the subscriptions of an event. Subscriptions are told by their numbers. -/
inductive DeliveryNote (α : Type) where
  | subscribed (id : Nat)
  | unsubscribed (id : Nat)
  /-- A trigger hands over its payload. -/
  | triggered (payload : α)
  | received (id : Nat) (answer : Received α)
  /-- The event goes away. -/
  | dropped

namespace DeliveryNote

variable {α : Type}

@[simp]
def subscribed? : DeliveryNote α → Option Nat
  | subscribed id => some id
  | _ => none

@[simp]
def payload? : DeliveryNote α → Option α
  | triggered a => some a
  | _ => none

/-- The answer to a subscription. -/
@[simp]
def answer? (id : Nat) : DeliveryNote α → Option (Received α)
  | received reader answer => if reader = id then some answer else none
  | _ => none

/-- What a subscription notices. -/
@[simp]
def sight? (id : Nat) : DeliveryNote α → Option (Sight α)
  | triggered a => some (.came a)
  | received reader _ => if reader = id then some .asked else none
  | dropped => some .ended
  | subscribed _ | unsubscribed _ => none

/-- The payloads triggered, oldest first. -/
def triggeredIn (notes : List (DeliveryNote α)) : List α := notes.filterMap payload?

/-- The answers to a subscription, oldest first. -/
def answersTo (id : Nat) (notes : List (DeliveryNote α)) : List (Received α) :=
  notes.filterMap (answer? id)

/-- What a subscription noticed. -/
def sights (id : Nat) (notes : List (DeliveryNote α)) : List (Sight α) :=
  notes.filterMap (sight? id)

/-- What happened since a subscription was made, while it is held. -/
def Since (notes : List (DeliveryNote α)) (id : Nat) (during : List (DeliveryNote α)) : Prop :=
  (∃ before, notes = before ++ .subscribed id :: during) ∧ .unsubscribed id ∉ during

/-- A subscription was answered as its mailbox would have answered it. -/
def Answered (room id : Nat) (during : List (DeliveryNote α)) : Prop :=
  answersTo id during = (Mailbox.after room (sights id during)).answers

variable {notes during first second : List (DeliveryNote α)} {note : DeliveryNote α}
  {room id : Nat}

@[simp]
theorem answersTo_concat (id : Nat) (notes : List (DeliveryNote α)) (note : DeliveryNote α) :
    answersTo id (notes ++ [note]) = answersTo id notes ++ (note.answer? id).toList :=
  filterMap_concat _ notes note

@[simp]
theorem sights_concat (id : Nat) (notes : List (DeliveryNote α)) (note : DeliveryNote α) :
    sights id (notes ++ [note]) = sights id notes ++ (note.sight? id).toList :=
  filterMap_concat _ notes note

theorem after_sights_concat {sight : Sight α} (room : Nat) (notes : List (DeliveryNote α))
    (hsight : note.sight? id = some sight) :
    Mailbox.after room (sights id (notes ++ [note])) =
      (Mailbox.after room (sights id notes)).see room sight := by
  rw [sights_concat, hsight]
  exact Mailbox.after_concat room _ sight

/-- All payloads triggered come for all subscriptions. -/
theorem payloads_sights (id : Nat) (notes : List (DeliveryNote α)) :
    Sight.payloads (sights id notes) = triggeredIn notes := by
  rw [Sight.payloads, sights, List.filterMap_filterMap]
  refine List.filterMap_congr fun note _ => ?_
  cases note with
  | received reader answer =>
    by_cases hreader : reader = id <;> simp [hreader, Sight.payload?]
  | _ => rfl

theorem Since.isSuffix (h : Since notes id during) : during <:+ notes := by
  obtain ⟨⟨before, rfl⟩, -⟩ := h
  exact ⟨before ++ [.subscribed id], by simp⟩

/-- What happened first, while the subscription is held. -/
theorem Since.of_append (h : Since notes id (first ++ second)) :
    ∃ earlier, earlier <+: notes ∧ Since earlier id first := by
  obtain ⟨⟨before, rfl⟩, hheld⟩ := h
  refine ⟨before ++ .subscribed id :: first, ⟨second, by simp⟩, ⟨before, rfl⟩, ?_⟩
  exact fun hmem => hheld (List.mem_append_left _ hmem)

/-- A subscription was made and is still held, or it is made just now. -/
theorem Since.of_concat (h : Since (notes ++ [note]) id during) :
    (∃ earlier, during = earlier ++ [note] ∧ note ≠ .unsubscribed id ∧ Since notes id earlier) ∨
      (note = .subscribed id ∧ during = []) := by
  obtain ⟨⟨before, hnotes⟩, hheld⟩ := h
  rcases List.eq_nil_or_concat' during with rfl | ⟨earlier, last, rfl⟩
  · have hlast := List.append_inj_right' hnotes rfl
    exact .inr ⟨List.singleton_inj.mp hlast, rfl⟩
  · rw [← List.cons_append, ← List.append_assoc] at hnotes
    obtain ⟨hbefore, hlast⟩ := List.append_inj' hnotes rfl
    obtain rfl := List.singleton_inj.mp hlast
    simp only [List.mem_append, List.mem_singleton, not_or] at hheld
    exact .inl ⟨earlier, rfl, Ne.symm hheld.2, ⟨before, hbefore⟩, hheld.1⟩

end DeliveryNote

/-! ## The channel is what the notes say -/

namespace Broadcast

open DeliveryNote

variable {α : Type} {c : Broadcast α} {sent : List α} {room id : Nat}
  {notes during : List (DeliveryNote α)} {note : DeliveryNote α}

/-- A subscription reads where its mailbox is. -/
structure Reads (room : Nat) (sent : List α) (id : Nat) (during : List (DeliveryNote α))
    (c : Broadcast α) : Prop where
  unread : ∃ position, c.cursors.lookup id = some position ∧ position ≤ sent.length ∧
    (Mailbox.after room (sights id during)).unread = sent.drop position
  ended : (Mailbox.after room (sights id during)).ended = c.closed
  answered : Answered room id during

/-- Every subscription that is held reads where its mailbox is, and those held before were answered
as theirs would have answered. -/
structure Kept (room : Nat) (notes : List (DeliveryNote α)) (c : Broadcast α) : Prop where
  capacity : c.capacity = room
  numbers : notes.filterMap subscribed? = List.range c.nextSubscription
  fresh : ∀ id ∈ c.cursors.map Prod.fst, id < c.nextSubscription
  reads : ∃ sent, Carries sent c ∧ ∀ id during, Since notes id during → c.Reads room sent id during
  answered : ∀ earlier id during, earlier <+: notes → Since earlier id during →
    Answered room id during
  closed : .dropped ∈ notes → c.closed = true
  /-- Nothing is triggered when the event is gone. -/
  quiet : notes.Pairwise fun first second => first = .dropped → second.payload? = none

theorem kept_ofCapacity (wanted : Nat) :
    Kept (roomFor wanted) [] (ofCapacity wanted : Broadcast α) where
  capacity := rfl
  numbers := rfl
  fresh := by simp [ofCapacity]
  reads := ⟨[], carries_ofCapacity wanted, by simp [Since]⟩
  answered := by
    intro earlier id during hprefix hsince
    obtain rfl := List.prefix_nil.mp hprefix
    simp [Since] at hsince
  closed := by simp
  quiet := .nil

section Step

variable {c' : Broadcast α}

/-- One more thing happens. -/
theorem Kept.concat (h : Kept room notes c) (note : DeliveryNote α)
    (hcapacity : c'.capacity = c.capacity)
    (hnumbers : List.range c'.nextSubscription =
      List.range c.nextSubscription ++ note.subscribed?.toList)
    (hfresh : ∀ id ∈ c'.cursors.map Prod.fst, id < c'.nextSubscription)
    (hreads : ∃ sent, Carries sent c' ∧
      (∀ id during, Since notes id during → note ≠ .unsubscribed id →
        c'.Reads room sent id (during ++ [note])) ∧
      ∀ id, note = .subscribed id → c'.Reads room sent id [])
    (hclosed : c.closed = true ∨ note = .dropped → c'.closed = true)
    (hquiet : note.payload?.isSome → c.closed = false) : Kept room (notes ++ [note]) c' := by
  obtain ⟨sent, hcarries, hheld, hnew⟩ := hreads
  have hreads : ∀ id during, Since (notes ++ [note]) id during → c'.Reads room sent id during := by
    intro id during hsince
    rcases hsince.of_concat with ⟨earlier, rfl, hnote, hearlier⟩ | ⟨hnote, rfl⟩
    · exact hheld id earlier hearlier hnote
    · exact hnew id hnote
  constructor
  case capacity => exact hcapacity.trans h.capacity
  case numbers => rw [filterMap_concat, h.numbers, hnumbers]
  case fresh => exact hfresh
  case reads => exact ⟨sent, hcarries, hreads⟩
  case answered =>
    intro earlier id during hprefix hsince
    rcases List.prefix_concat_iff.mp hprefix with rfl | hprefix
    · exact (hreads id during hsince).answered
    · exact h.answered earlier id during hprefix hsince
  case closed =>
    intro hmem
    rcases List.mem_append.mp hmem with hpast | hnote
    · exact hclosed (.inl (h.closed hpast))
    · exact hclosed (.inr (List.mem_singleton.mp hnote).symm)
  case quiet =>
    refine List.pairwise_append.mpr ⟨h.quiet, List.pairwise_singleton _ _, ?_⟩
    rintro first hfirst second hsecond rfl
    obtain rfl := List.mem_singleton.mp hsecond
    by_contra hpayload
    have hopen := hquiet (Option.isSome_iff_ne_none.mpr hpayload)
    rw [h.closed hfirst] at hopen
    cases hopen

/-- What a subscription does not notice leaves it where it is. -/
theorem Reads.unnoticed (h : c.Reads room sent id during) (hsight : note.sight? id = none)
    (hanswer : note.answer? id = none) (hlookup : c'.cursors.lookup id = c.cursors.lookup id)
    (hclosed : c'.closed = c.closed) : c'.Reads room sent id (during ++ [note]) := by
  have hsights : sights id (during ++ [note]) = sights id during := by
    rw [sights_concat, hsight]
    exact List.append_nil _
  constructor
  · rw [hsights, hlookup]
    exact h.unread
  · rw [hsights, hclosed]
    exact h.ended
  · rw [Answered, hsights, answersTo_concat, hanswer, Option.toList_none, List.append_nil]
    exact h.answered

theorem Reads.mem_cursors (h : c.Reads room sent id during) : id ∈ c.cursors.map Prod.fst := by
  obtain ⟨position, hlookup, -⟩ := h.unread
  by_contra hnone
  rw [Table.lookup_eq_none_of_notMem hnone] at hlookup
  cases hlookup

/-! ### Subscriptions come and go -/

/-- A subscription starts with an empty mailbox. -/
theorem Kept.subscribe (h : Kept room notes c) (hopen : c.closed = false) :
    Kept room (notes ++ [.subscribed c.nextSubscription]) c.subscribe.1 := by
  refine h.concat _ rfl List.range_succ ?_ ?_ (by simp [Broadcast.subscribe]) (by simp)
  · intro id hmem
    simp only [Broadcast.subscribe, List.map_append, List.mem_append] at hmem
    rcases hmem with hold | hnew
    · exact Nat.lt_succ_of_lt (h.fresh id hold)
    · obtain rfl : id = c.nextSubscription := by simpa using hnew
      exact Nat.lt_succ_self _
  obtain ⟨sent, hcarries, hreads⟩ := h.reads
  have hcursors : ∀ id, c.subscribe.1.cursors.lookup id =
      (c.cursors.lookup id).or ([(c.nextSubscription, c.sent)].lookup id) :=
    fun id => List.lookup_append
  refine ⟨sent, ⟨hcarries.count, hcarries.kept⟩, ?_, ?_⟩
  · intro id during hsince _
    have hread := hreads id during hsince
    obtain ⟨position, hlookup, -⟩ := hread.unread
    refine hread.unnoticed rfl rfl ?_ rfl
    rw [hcursors, hlookup, Option.some_or]
  · rintro id hid
    obtain rfl := DeliveryNote.subscribed.inj hid
    have hnone : c.cursors.lookup c.nextSubscription = none :=
      Table.lookup_eq_none_of_notMem fun hmem => Nat.lt_irrefl _ (h.fresh _ hmem)
    refine ⟨⟨sent.length, ?_, Nat.le_refl _, ?_⟩, hopen.symm, rfl⟩
    · rw [hcursors, hnone, Option.none_or, List.lookup_cons_self, hcarries.count]
    · exact List.drop_length.symm

theorem Kept.unsubscribe (h : Kept room notes c) (gone : Nat) :
    Kept room (notes ++ [.unsubscribed gone]) (c.unsubscribe gone) := by
  refine h.concat _ rfl (List.append_nil _).symm ?_ ?_ (by simp [Broadcast.unsubscribe]) (by simp)
  · intro id hmem
    exact h.fresh id ((List.filter_sublist.map Prod.fst).mem hmem)
  obtain ⟨sent, hcarries, hreads⟩ := h.reads
  refine ⟨sent, ⟨hcarries.count, hcarries.kept⟩, ?_, by simp⟩
  intro id during hsince hid
  have hne : id ≠ gone := fun heq => hid (heq ▸ rfl)
  have hcursors : (c.unsubscribe gone).cursors = Table.erase gone c.cursors := by
    refine List.filter_congr fun cursor _ => ?_
    by_cases hgone : cursor.1 = gone <;> simp [hgone]
  refine (hreads id during hsince).unnoticed rfl rfl ?_ rfl
  rw [hcursors, Table.lookup_erase_of_ne hne]

/-! ### Payloads and the end of the event -/

theorem capacity_send (a : α) (c : Broadcast α) : (c.send a).1.capacity = c.capacity := by
  unfold Broadcast.send
  split_ifs <;> rfl

theorem closed_send (a : α) (c : Broadcast α) : (c.send a).1.closed = c.closed := by
  unfold Broadcast.send
  split_ifs <;> rfl

/-- A payload comes for every subscription. -/
theorem Reads.send (h : c.Reads room sent id during) (a : α) :
    (c.send a).1.Reads room (sent ++ [a]) id (during ++ [.triggered a]) := by
  obtain ⟨⟨position, hlookup, hle, hunread⟩, hended, hanswered⟩ := h
  have hnotice : sight? id (.triggered a) = some (.came a) := rfl
  have hbox := after_sights_concat room during hnotice
  refine ⟨⟨position, ?_, ?_, ?_⟩, ?_, ?_⟩
  · rw [cursors_send, hlookup]
  · rw [List.length_append]
    omega
  · rw [hbox, List.drop_append_of_le_length hle, ← hunread]
    rfl
  · rw [hbox, closed_send]
    exact hended
  · rw [Answered, hbox, answersTo_concat]
    exact (List.append_nil _).trans hanswered

theorem Kept.send (h : Kept room notes c) (hopen : c.closed = false) (a : α) :
    Kept room (notes ++ [.triggered a]) (c.send a).1 := by
  have hcursors := cursors_send a c
  have hnext := nextSubscription_send a c
  refine h.concat _ (capacity_send a c) ?_ ?_ ?_ (by simp [closed_send]) fun _ => hopen
  · rw [hnext]
    exact (List.append_nil _).symm
  · rw [hcursors, hnext]
    exact h.fresh
  obtain ⟨sent, hcarries, hreads⟩ := h.reads
  by_cases hheld : c.cursors = []
  · -- nobody subscribes, so nothing is sent
    have hsame : (c.send a).1 = c := by rw [Broadcast.send, if_pos (List.isEmpty_iff.mpr hheld)]
    refine ⟨sent, by rwa [hsame], ?_, by simp⟩
    intro id during hsince _
    have hmem := (hreads id during hsince).mem_cursors
    simp [hheld] at hmem
  · exact ⟨sent ++ [a], hcarries.send hheld a,
      fun id during hsince _ => (hreads id during hsince).send a, by simp⟩

theorem Reads.close (h : c.Reads room sent id during) :
    c.close.Reads room sent id (during ++ [.dropped]) := by
  obtain ⟨hunread, hended, hanswered⟩ := h
  have hnotice : sight? id (.dropped : DeliveryNote α) = some .ended := rfl
  have hbox := after_sights_concat room during hnotice
  refine ⟨?_, ?_, ?_⟩
  · rw [hbox]
    exact hunread
  · rw [hbox]
    rfl
  · rw [Answered, hbox, answersTo_concat]
    exact (List.append_nil _).trans hanswered

theorem Kept.close (h : Kept room notes c) : Kept room (notes ++ [.dropped]) c.close := by
  refine h.concat _ rfl (List.append_nil _).symm h.fresh ?_ (fun _ => rfl) (by simp)
  obtain ⟨sent, hcarries, hreads⟩ := h.reads
  exact ⟨sent, ⟨hcarries.count, hcarries.kept⟩,
    fun id during hsince _ => (hreads id during hsince).close, by simp⟩

/-! ### Subscriptions ask -/

theorem receive_of_lookup {position : Nat} (h : c.cursors.lookup id = some position) :
    c.receive id =
      ({ c with cursors := Table.update id (fun _ => (c.receiveAt position).2) c.cursors },
        (c.receiveAt position).1) := by
  rw [receive, h]
  rfl

/-- Only the position of the subscription changes. -/
theorem receive_fst (id : Nat) (c : Broadcast α) :
    (c.receive id).1 = { c with cursors := (c.receive id).1.cursors } := by
  unfold receive
  cases c.cursors.lookup id <;> rfl

theorem capacity_receive (id : Nat) (c : Broadcast α) :
    (c.receive id).1.capacity = c.capacity := by
  rw [receive_fst]

theorem closed_receive (id : Nat) (c : Broadcast α) : (c.receive id).1.closed = c.closed := by
  rw [receive_fst]

theorem Carries.receive (h : Carries sent c) (id : Nat) : Carries sent (c.receive id).1 := by
  rw [receive_fst]
  exact ⟨h.count, h.kept⟩

theorem lookup_receive_of_ne {reader : Nat} (h : id ≠ reader) (c : Broadcast α) :
    (c.receive reader).1.cursors.lookup id = c.cursors.lookup id := by
  cases hlookup : c.cursors.lookup reader with
  | none => rw [receive, hlookup]
  | some position =>
    rw [receive_of_lookup hlookup, Table.lookup_update, if_neg h]
    exact Option.map_id'

/-- A subscription that asks is answered as its mailbox would answer. -/
theorem Reads.receive (h : c.Reads c.capacity sent id during) (hcarries : Carries sent c) :
    (c.receive id).1.Reads c.capacity sent id
      (during ++ [.received id (c.receive id).2]) := by
  obtain ⟨⟨position, hlookup, hle, hunread⟩, hended, hanswered⟩ := h
  obtain ⟨hanswer, hle', hunread'⟩ := hcarries.receiveAt hle hunread hended
  rw [receive_of_lookup hlookup]
  have hnotice : sight? id (.received id (c.receiveAt position).1) = some .asked := if_pos rfl
  have hbox := after_sights_concat c.capacity during hnotice
  refine ⟨⟨(c.receiveAt position).2, ?_, hle', ?_⟩, ?_, ?_⟩
  · rw [Table.lookup_update, if_pos rfl, hlookup]
    rfl
  · rw [hbox, hunread']
  · rw [hbox]
    exact hended
  · rw [Answered, hbox, answersTo_concat, hanswered, hanswer]
    simp [Mailbox.see]

/-- The other subscriptions notice nothing. -/
theorem Kept.receive (h : Kept room notes c) (reader : Nat) :
    Kept room (notes ++ [.received reader (c.receive reader).2]) (c.receive reader).1 := by
  obtain rfl := h.capacity
  have hnext := nextSubscription_receive reader c
  refine h.concat _ (capacity_receive reader c) ?_ ?_ ?_ (by simp [closed_receive]) (by simp)
  · rw [hnext]
    exact (List.append_nil _).symm
  · rw [cursors_receive, hnext]
    exact h.fresh
  obtain ⟨sent, hcarries, hreads⟩ := h.reads
  refine ⟨sent, hcarries.receive reader, ?_, by simp⟩
  intro id during hsince _
  have hread := hreads id during hsince
  by_cases hid : id = reader
  · subst hid
    exact hread.receive hcarries
  · exact hread.unnoticed (if_neg (Ne.symm hid)) (if_neg (Ne.symm hid))
      (lookup_receive_of_ne hid c) (closed_receive reader c)

end Step

end Broadcast

end LedgerWatch
