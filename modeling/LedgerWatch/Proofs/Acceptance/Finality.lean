import LedgerWatch.Acceptance
import LedgerWatch.Proofs.Notifier
import LedgerWatch.Proofs.Status.Advance
import Mathlib.Logic.Function.Basic

/-!
# Waiting for finality

Callers wait for slots to be finalized while statuses come in from several sides. A status changes
the picture as a whole and is announced afterwards, and a listener is entered before its caller
looks at the picture, so a slot that is finalized in between is seen from one side at least. The
picture never goes back, so whatever was announced or looked at is still true when a listener is
signalled for it.

## Main definitions

- `SlotReached`: a finalized commitment has reached a slot
- `SlotStage`: how far the registration of a listener has come
- `FinalityWorld`, `FinalityWorld.Step`, `FinalityWorld.Reachable`: the steps, in any order
- `FinalityWorld.Sound`: whatever signals a listener is backed by the picture
- `FinalityWorld.Due`, `FinalityWorld.Served`: something under way will signal a listener whose slot
  is reached, unless it is signalled

## Main results

- `FinalityWorld.Sound.step`, `FinalityWorld.Served.step`: every step preserves both
- `FinalityWorld.Reachable.triggered_slotListener`: listeners follow the finalized commitment

## Design notes

A world starts with any picture and no listeners. Updates that were made before the hook was
attached and are announced after it need no case of their own: an announcement that no listener
hears changes nothing, so they may as well be made from the start on.
-/

namespace LedgerWatch

/-- There is a finalized commitment, and it has reached the slot. -/
def SlotReached (slot : Slot) (finalized : Option Commitment) : Prop :=
  ∃ c, finalized = some c ∧ slot ≤ c.slot

theorem any_slot_iff {slot : Slot} {finalized : Option Commitment} :
    finalized.any (fun c => slot ≤ c.slot) = true ↔ SlotReached slot finalized := by
  cases finalized <;> simp [SlotReached]

/-- The commitment that an announcement says is finalized. -/
def StatusEvent.finalized? : StatusEvent → Option Commitment :=
  CommitmentTrack.finalized.ofEvent?

theorem StatusCache.finalizedChanged_mem_events {progress : Progress} {c : Commitment} :
    .finalizedChanged c ∈ progress.events ↔ progress.finalized = some c :=
  @event_mem_events .finalized progress c

namespace StatusCache.Updates

variable {codec : Codec} {raw : RawStatus} {api : Parameters} {before after : StatusCache}
  {progress : Progress}

theorem finalized_cases (h : Updates codec raw api before after progress) :
    (progress.finalized = none ∧ after.finalized = before.finalized) ∨
      ∃ c, progress.finalized = some c ∧ after.finalized = some c ∧
        c.aheadOf before.finalized = true :=
  h.held_cases .finalized

/-- The finalized commitment of a picture never goes back. -/
theorem slotReached (h : Updates codec raw api before after progress) {slot : Slot}
    (hreached : SlotReached slot before.finalized) : SlotReached slot after.finalized := by
  rcases h.finalized_cases with ⟨-, hsame⟩ | ⟨c, -, hheld, hahead⟩
  · exact hsame ▸ hreached
  · obtain ⟨known, hknown, hle⟩ := hreached
    have hlt : known.slot < c.slot := by simpa [hknown, Commitment.aheadOf] using hahead
    exact ⟨c, hheld, UInt32.le_trans hle (UInt32.le_of_lt hlt)⟩

/-- What an update announces as finalized is what the picture holds after it. -/
theorem slotReached_event (h : Updates codec raw api before after progress) {event : StatusEvent}
    (hevent : event ∈ progress.events) {slot : Slot}
    (hreached : SlotReached slot event.finalized?) : SlotReached slot after.finalized := by
  cases event with
  | latestChanged _ =>
    obtain ⟨c, hc, -⟩ := hreached
    cases hc
  | finalizedChanged announced =>
    have hmoved : progress.finalized = some announced :=
      finalizedChanged_mem_events.mp hevent
    rcases h.finalized_cases with ⟨hnone, -⟩ | ⟨c, hsome, hheld, -⟩
    · rw [hmoved] at hnone
      cases hnone
    · rw [hmoved] at hsome
      rw [hheld, ← hsome]
      exact hreached

end StatusCache.Updates

/-! ## Signals of slot listeners -/

namespace Acceptance

variable {β : Type} {a : Acceptance β} {listener : Listener Slot}

theorem slotListeners_hear (event : StatusEvent) (a : Acceptance β) :
    ∃ ids, (a.hear event).slotListeners = (a.slotListeners.fire ids).1 := by
  cases event with
  | latestChanged _ => exact ⟨[], rfl⟩
  | finalizedChanged c => exact ⟨_, rfl⟩

theorem slotListeners_checkSlot (slot : Slot) (finalized : Option Commitment) (a : Acceptance β) :
    ∃ ids, (a.checkSlot slot finalized).slotListeners = (a.slotListeners.fire ids).1 := by
  unfold checkSlot
  split
  · exact ⟨_, rfl⟩
  · exact ⟨[], rfl⟩

/-- An announcement signals the listeners whose slots it reaches. -/
theorem isTriggered_hear (hregisters : a.slotListeners.Registers listener)
    (hnumbered : a.slotListeners.Numbered) (event : StatusEvent) :
    (a.hear event).slotListeners.isTriggered listener = true ↔
      a.slotListeners.isTriggered listener = true ∨ SlotReached listener.key event.finalized? := by
  cases event with
  | latestChanged _ =>
    simp [hear, SlotReached, StatusEvent.finalized?, CommitmentTrack.ofEvent?]
  | finalizedChanged c =>
    rw [hear, slotFinalized, hregisters.isTriggered_notifyWhere hnumbered]
    simp [SlotReached, StatusEvent.finalized?, CommitmentTrack.ofEvent?]

/-- A check signals the listeners of its slot, if this was reached. -/
theorem isTriggered_checkSlot (hregisters : a.slotListeners.Registers listener)
    (hnumbered : a.slotListeners.Numbered) (slot : Slot) (finalized : Option Commitment) :
    (a.checkSlot slot finalized).slotListeners.isTriggered listener = true ↔
      a.slotListeners.isTriggered listener = true ∨
        SlotReached slot finalized ∧ listener.key = slot := by
  by_cases hreached : SlotReached slot finalized
  · rw [checkSlot, if_pos (any_slot_iff.mpr hreached),
      hregisters.isTriggered_notify_eq hnumbered slot]
    simp [hreached]
  · rw [checkSlot, if_neg (mt any_slot_iff.mp hreached)]
    simp [hreached]

end Acceptance

/-! ## The world -/

/-- How far the registration of a listener has come. -/
inductive SlotStage where
  /-- It is over, or it has not begun. -/
  | idle
  /-- The listener is entered, and its caller has not looked at the picture. -/
  | entered
  /-- The caller has seen a finalized commitment, or none, and has not acted on it. -/
  | read (finalized : Option Commitment)

/-- The registration may still signal the listener of the slot: its caller has not looked at the
picture, or has seen that the slot is reached. -/
def SlotStage.Signals (slot : Slot) : SlotStage → Prop
  | idle => False
  | entered => True
  | read finalized => SlotReached slot finalized

structure FinalityWorld where
  cache : StatusCache
  waiting : Acceptance Nat
  /-- The handles that callers keep. -/
  handles : List (Listener Slot)
  stages : Listener Slot → SlotStage
  /-- For every update, what is still to be announced of it. -/
  announcements : List (List StatusEvent)

namespace FinalityWorld

def start (cache : StatusCache) : FinalityWorld where
  cache
  waiting := .empty
  handles := []
  stages := fun _ => .idle
  announcements := []

/-- A status comes in and changes the picture. -/
def apply (codec : Codec) (raw : RawStatus) (w : FinalityWorld) : FinalityWorld :=
  match w.cache.apply codec raw with
  | .ok (cache, progress) =>
    { w with cache, announcements := w.announcements ++ [progress.events] }
  | .error _ => w

theorem stages_apply (codec : Codec) (raw : RawStatus) (w : FinalityWorld) :
    (w.apply codec raw).stages = w.stages := by
  unfold apply
  split <;> rfl

def setStage (listener : Listener Slot) (stage : SlotStage) (w : FinalityWorld) : FinalityWorld :=
  { w with stages := Function.update w.stages listener stage }

@[simp] theorem stages_setStage_self (listener : Listener Slot) (stage : SlotStage)
    (w : FinalityWorld) : (w.setStage listener stage).stages listener = stage :=
  Function.update_self ..

theorem stages_setStage_of_ne {listener other : Listener Slot} (h : other ≠ listener)
    (stage : SlotStage) (w : FinalityWorld) :
    (w.setStage listener stage).stages other = w.stages other :=
  Function.update_of_ne h ..

/-- Enters a listener, whose handle the caller keeps. -/
def enter (slot : Slot) (w : FinalityWorld) : FinalityWorld :=
  let (waiting, listener) := w.waiting.enterSlotListener slot
  { w with waiting, handles := listener :: w.handles }.setStage listener .entered

theorem stages_enter_self (slot : Slot) (w : FinalityWorld) :
    (w.enter slot).stages (w.waiting.enterSlotListener slot).2 = .entered :=
  stages_setStage_self ..

def check (listener : Listener Slot) (finalized : Option Commitment) (w : FinalityWorld) :
    FinalityWorld :=
  { w with waiting := w.waiting.checkSlot listener.key finalized }.setStage listener .idle

def drop (listener : Listener Slot) (w : FinalityWorld) : FinalityWorld :=
  { w with
    waiting := w.waiting.dropSlotListener listener
    handles := w.handles.filter (· ≠ listener) }

/-- The steps. A caller has the handle of its listener when the registration is over. -/
inductive Step (codec : Codec) (w : FinalityWorld) : FinalityWorld → Prop
  -- statuses
  | apply (raw : RawStatus) : Step codec w (w.apply codec raw)
  | announce {event : StatusEvent} {events : List StatusEvent}
      {earlier later : List (List StatusEvent)}
      (hopen : w.announcements = earlier ++ (event :: events) :: later) :
      Step codec w
        { w with waiting := w.waiting.hear event, announcements := earlier ++ events :: later }
  -- registrations
  | enter (slot : Slot) : Step codec w (w.enter slot)
  | read {listener : Listener Slot} (hentered : w.stages listener = .entered) :
      Step codec w (w.setStage listener (.read w.cache.finalized))
  | check {listener : Listener Slot} {finalized : Option Commitment}
      (hread : w.stages listener = .read finalized) : Step codec w (w.check listener finalized)
  -- those who give up
  | drop {listener : Listener Slot} (hkept : listener ∈ w.handles)
      (hidle : w.stages listener = .idle) : Step codec w (w.drop listener)

/-- The worlds to which steps lead, in any order and from any picture. -/
inductive Reachable (codec : Codec) : FinalityWorld → Prop
  | start (cache : StatusCache) : Reachable codec (start cache)
  | step {w w' : FinalityWorld} (h : Reachable codec w) (hstep : Step codec w w') :
      Reachable codec w'

def Triggered (listener : Listener Slot) (w : FinalityWorld) : Prop :=
  w.waiting.slotListeners.isTriggered listener = true

instance (listener : Listener Slot) (w : FinalityWorld) : Decidable (w.Triggered listener) :=
  inferInstanceAs (Decidable (_ = true))

/-- The finalized commitment has reached the slot. -/
def Reached (slot : Slot) (w : FinalityWorld) : Prop :=
  SlotReached slot w.cache.finalized

/-- No update is being announced, and no registration is in progress. -/
structure Quiet (w : FinalityWorld) : Prop where
  announcements : ∀ events ∈ w.announcements, events = []
  stages : ∀ listener, w.stages listener = .idle

/-! ## What the listeners are owed -/

/-- The listeners that callers keep are registered, and what was signalled, what is going to be
announced and what was seen in the picture is all still true of it. -/
structure Sound (w : FinalityWorld) : Prop where
  numbered : w.waiting.slotListeners.Numbered
  registers : ∀ listener ∈ w.handles, w.waiting.slotListeners.Registers listener
  triggered : ∀ listener ∈ w.handles, w.Triggered listener → w.Reached listener.key
  announced : ∀ events ∈ w.announcements, ∀ event ∈ events, ∀ slot,
    SlotReached slot event.finalized? → w.Reached slot
  read : ∀ listener finalized slot, w.stages listener = .read finalized →
    SlotReached slot finalized → w.Reached slot

/-- Something under way will signal the listener: its own registration, or an announcement. -/
def Due (listener : Listener Slot) (w : FinalityWorld) : Prop :=
  (w.stages listener).Signals listener.key ∨
    ∃ events ∈ w.announcements, ∃ event ∈ events, SlotReached listener.key event.finalized?

/-- A listener whose slot is reached is signalled, or it is going to be. -/
def Served (w : FinalityWorld) : Prop :=
  ∀ listener ∈ w.handles, w.Reached listener.key → w.Triggered listener ∨ w.Due listener

variable {codec : Codec} {w w' : FinalityWorld}

theorem sound_start (cache : StatusCache) : (start cache).Sound where
  numbered := Notifier.numbered_empty
  registers := by simp [start]
  triggered := by simp [start]
  announced := by simp [start]
  read := by simp [start]

theorem served_start (cache : StatusCache) : (start cache).Served := by
  simp [Served, start]

/-! ## Statuses -/

/-- An update, told by what it does to the world. -/
theorem apply_cases (codec : Codec) (raw : RawStatus) (w : FinalityWorld) :
    w.apply codec raw = w ∨
      ∃ api after progress, StatusCache.Updates codec raw api w.cache after progress ∧
        w.apply codec raw =
          { w with cache := after, announcements := w.announcements ++ [progress.events] } := by
  rcases StatusCache.apply_cases codec raw w.cache with
    ⟨-, fault, happly⟩ | ⟨api, after, progress, -, happly, hupdates⟩
  · exact .inl (by rw [apply, happly])
  · exact .inr ⟨api, after, progress, hupdates, by rw [apply, happly]⟩

theorem Sound.apply (h : w.Sound) (raw : RawStatus) : (w.apply codec raw).Sound := by
  rcases apply_cases codec raw w with hsame | ⟨api, after, progress, hupdates, hafter⟩
  · rwa [hsame]
  · rw [hafter]
    exact {
      numbered := h.numbered
      registers := h.registers
      triggered := fun listener hlistener htriggered =>
        hupdates.slotReached (h.triggered listener hlistener htriggered)
      announced := fun events hevents event hevent slot hreached => by
        rcases List.mem_append.mp hevents with hold | hnew
        · exact hupdates.slotReached (h.announced events hold event hevent slot hreached)
        · obtain rfl := List.mem_singleton.mp hnew
          exact hupdates.slotReached_event hevent hreached
      read := fun listener finalized slot hstage hreached =>
        hupdates.slotReached (h.read listener finalized slot hstage hreached) }

theorem Served.apply (h : w.Served) (raw : RawStatus) : (w.apply codec raw).Served := by
  rcases apply_cases codec raw w with hsame | ⟨api, after, progress, hupdates, hafter⟩
  · rwa [hsame]
  · rw [hafter]
    intro listener hlistener hreached
    rcases hupdates.finalized_cases with ⟨-, hsame⟩ | ⟨c, hmoved, hheld, -⟩
    · have hbefore : w.Reached listener.key := by
        rwa [Reached, hsame] at hreached
      refine (h listener hlistener hbefore).imp_right (Or.imp_right ?_)
      rintro ⟨events, hevents, hevent⟩
      exact ⟨events, List.mem_append_left _ hevents, hevent⟩
    · -- The new commitment has reached the slot and is going to be announced.
      refine .inr (.inr ⟨progress.events, by simp, .finalizedChanged c, ?_, ?_⟩)
      · exact StatusCache.finalizedChanged_mem_events.mpr hmoved
      · rw [Reached, hheld] at hreached
        exact hreached

/-- Signals that are backed by the picture keep it sound. -/
theorem Sound.signal (h : w.Sound) {after : Acceptance Nat} {ids : List Nat}
    (hfire : after.slotListeners = (w.waiting.slotListeners.fire ids).1)
    (hbacked : ∀ listener ∈ w.handles, after.slotListeners.isTriggered listener = true →
      w.Triggered listener ∨ w.Reached listener.key) :
    { w with waiting := after }.Sound where
  numbered := hfire ▸ h.numbered.fire ids
  registers listener hlistener := hfire ▸ (h.registers listener hlistener).fire ids
  triggered listener hlistener htriggered :=
    (hbacked listener hlistener htriggered).elim (h.triggered listener hlistener) id
  announced := h.announced
  read := h.read

theorem Sound.announce (h : w.Sound) {event : StatusEvent} {events : List StatusEvent}
    {earlier later : List (List StatusEvent)}
    (hopen : w.announcements = earlier ++ (event :: events) :: later) :
    { w with waiting := w.waiting.hear event
             announcements := earlier ++ events :: later }.Sound := by
  have hmem : event :: events ∈ w.announcements := by simp [hopen]
  obtain ⟨ids, hfire⟩ := w.waiting.slotListeners_hear event
  have hsignal : { w with waiting := w.waiting.hear event }.Sound := by
    refine h.signal hfire fun listener hlistener htriggered => ?_
    refine ((Acceptance.isTriggered_hear (h.registers listener hlistener) h.numbered event).mp
      htriggered).imp_right fun hreached => ?_
    exact h.announced _ hmem event List.mem_cons_self _ hreached
  refine { hsignal with announced := fun others hothers other hother => ?_ }
  rcases List.mem_append.mp hothers with hearlier | hlater
  · exact h.announced others (by simp [hopen, hearlier]) other hother
  · rcases List.mem_cons.mp hlater with rfl | hlater
    · exact h.announced _ hmem other (List.mem_cons_of_mem _ hother)
    · exact h.announced others (by simp [hopen, hlater]) other hother

/-- The announcement that is made serves those that it was due to, and the others are still due. -/
theorem Served.announce (h : w.Served) (hs : w.Sound) {event : StatusEvent}
    {events : List StatusEvent} {earlier later : List (List StatusEvent)}
    (hopen : w.announcements = earlier ++ (event :: events) :: later) :
    { w with waiting := w.waiting.hear event
             announcements := earlier ++ events :: later }.Served := by
  intro listener hlistener hreached
  have htriggered := Acceptance.isTriggered_hear (hs.registers listener hlistener) hs.numbered event
  rcases h listener hlistener hreached with
    hbefore | hstage | ⟨others, hothers, other, hother, hdue⟩
  · exact .inl (htriggered.mpr (.inl hbefore))
  · exact .inr (.inl hstage)
  · rw [hopen, List.mem_append, List.mem_cons] at hothers
    rcases hothers with hearlier | rfl | hlater
    · exact .inr (.inr ⟨others, by simp [hearlier], other, hother, hdue⟩)
    · rcases List.mem_cons.mp hother with rfl | hrest
      · exact .inl (htriggered.mpr (.inr hdue))
      · exact .inr (.inr ⟨events, by simp, other, hrest, hdue⟩)
    · exact .inr (.inr ⟨others, by simp [hlater], other, hother, hdue⟩)

/-! ## Registrations -/

/-- A registration moves on to a stage that claims no more than the picture says. -/
theorem Sound.setStage (h : w.Sound) (listener : Listener Slot) {stage : SlotStage}
    (hstage : ∀ finalized slot, stage = .read finalized → SlotReached slot finalized →
      w.Reached slot) : (w.setStage listener stage).Sound where
  numbered := h.numbered
  registers := h.registers
  triggered := h.triggered
  announced := h.announced
  read other finalized slot hother := by
    by_cases heq : other = listener
    · subst heq
      rw [stages_setStage_self] at hother
      exact hstage finalized slot hother
    · rw [stages_setStage_of_ne heq] at hother
      exact h.read other finalized slot hother

/-- The stage of one registration says nothing of other listeners. -/
theorem Due.setStage {listener other : Listener Slot} (h : w.Due other) (hne : other ≠ listener)
    (stage : SlotStage) : (w.setStage listener stage).Due other :=
  h.imp_left fun hstage => by rwa [stages_setStage_of_ne hne]

theorem Sound.enter (h : w.Sound) (slot : Slot) : (w.enter slot).Sound := by
  refine Sound.setStage (w := { w with
    waiting := (w.waiting.enterSlotListener slot).1
    handles := (w.waiting.enterSlotListener slot).2 :: w.handles }) ?_ _ (by simp)
  exact {
    numbered := h.numbered.listen slot
    registers := fun listener hlistener => by
      rcases List.mem_cons.mp hlistener with rfl | hold
      · exact Notifier.registers_listen _ slot
      · exact (h.registers listener hold).listen slot
    triggered := fun listener hlistener htriggered => by
      rcases List.mem_cons.mp hlistener with rfl | hold
      · exact absurd htriggered (Bool.eq_false_iff.mp (h.numbered.isTriggered_listen_self slot))
      · rw [Triggered, Acceptance.enterSlotListener,
          (h.registers listener hold).isTriggered_listen] at htriggered
        exact h.triggered listener hold htriggered
    announced := h.announced
    read := h.read }

/-- The number of a new listener is not that of a handle that is kept. -/
theorem Sound.ne_new (h : w.Sound) {listener : Listener Slot} (hlistener : listener ∈ w.handles)
    (slot : Slot) : listener ≠ (w.waiting.enterSlotListener slot).2 := by
  rintro heq
  have hlt := h.numbered.signal_lt listener.id (h.registers listener hlistener).signalled
  rw [heq] at hlt
  exact Nat.lt_irrefl _ hlt

theorem Served.enter (h : w.Served) (hs : w.Sound) (slot : Slot) : (w.enter slot).Served := by
  intro listener hlistener hreached
  rcases List.mem_cons.mp hlistener with rfl | hold
  · have hsignals : ((w.enter slot).stages (w.waiting.enterSlotListener slot).2).Signals slot := by
      rw [stages_enter_self]
      trivial
    exact .inr (.inl hsignals)
  · rcases h listener hold hreached with htriggered | hdue
    · exact .inl (Notifier.isTriggered_listen_of htriggered slot)
    · exact .inr (Due.setStage hdue (hs.ne_new hold slot) _)

theorem Served.read (h : w.Served) {listener : Listener Slot} :
    (w.setStage listener (.read w.cache.finalized)).Served := by
  intro other hother hreached
  by_cases heq : other = listener
  · subst heq
    refine .inr (.inl ?_)
    rw [stages_setStage_self]
    exact hreached
  · exact (h other hother hreached).imp_right fun hdue => hdue.setStage heq _

theorem Sound.check (h : w.Sound) {listener : Listener Slot} {finalized : Option Commitment}
    (hread : w.stages listener = .read finalized) : (w.check listener finalized).Sound := by
  obtain ⟨ids, hfire⟩ := w.waiting.slotListeners_checkSlot listener.key finalized
  refine Sound.setStage (h.signal hfire fun other hother htriggered => ?_) _ (by simp)
  refine ((Acceptance.isTriggered_checkSlot (h.registers other hother) h.numbered _ _).mp
    htriggered).imp_right fun hreached => ?_
  rw [hreached.2]
  exact h.read listener finalized _ hread hreached.1

theorem Served.check (h : w.Served) (hs : w.Sound) {listener : Listener Slot}
    {finalized : Option Commitment} (hread : w.stages listener = .read finalized) :
    (w.check listener finalized).Served := by
  intro other hother hreached
  have htriggered := Acceptance.isTriggered_checkSlot (hs.registers other hother) hs.numbered
    listener.key finalized
  rcases h other hother hreached with hbefore | hdue
  · exact .inl (htriggered.mpr (.inl hbefore))
  · by_cases heq : other = listener
    · subst heq
      rcases hdue with hstage | hannounced
      · rw [hread] at hstage
        exact .inl (htriggered.mpr (.inr ⟨hstage, rfl⟩))
      · exact .inr (.inr hannounced)
    · exact .inr (Due.setStage hdue heq _)

/-! ## Listeners that go -/

/-- Two handles of one number are the same. -/
theorem Sound.handle_unique (h : w.Sound) {l l' : Listener Slot} (hl : l ∈ w.handles)
    (hl' : l' ∈ w.handles) (hid : l.id = l'.id) : l = l' := by
  have hlisted := Notifier.mem_entries_of_mem_listeners (h.registers l' hl').listed
  rw [← hid] at hlisted
  have hkey := (h.registers l hl).key_eq h.numbered hlisted
  cases l
  cases l'
  simp_all

theorem Sound.id_ne (h : w.Sound) {listener kept : Listener Slot} (hlistener : listener ∈ w.handles)
    (hkept : kept ∈ w.handles.filter (· ≠ listener)) : kept.id ≠ listener.id := by
  obtain ⟨hmem, hne⟩ := List.mem_filter.mp hkept
  exact fun hid => (of_decide_eq_true hne) (h.handle_unique hmem hlistener hid)

theorem Sound.drop (h : w.Sound) {listener : Listener Slot} (hlistener : listener ∈ w.handles) :
    (w.drop listener).Sound where
  numbered := h.numbered.drop listener
  registers kept hkept :=
    (h.registers kept (List.mem_of_mem_filter hkept)).drop (h.id_ne hlistener hkept)
  triggered kept hkept htriggered := by
    refine h.triggered kept (List.mem_of_mem_filter hkept) ?_
    exact (Notifier.isTriggered_drop (h.id_ne hlistener hkept)).symm.trans htriggered
  announced := h.announced
  read := h.read

theorem Served.drop (h : w.Served) (hs : w.Sound) {listener : Listener Slot}
    (hlistener : listener ∈ w.handles) : (w.drop listener).Served := by
  intro kept hkept hreached
  refine (h kept (List.mem_of_mem_filter hkept) hreached).imp_left fun htriggered => ?_
  exact (Notifier.isTriggered_drop (hs.id_ne hlistener hkept)).trans htriggered

/-! ## Every run -/

theorem Sound.step (h : w.Sound) (hstep : Step codec w w') : w'.Sound := by
  cases hstep with
  | apply raw => exact h.apply raw
  | announce hopen => exact h.announce hopen
  | enter slot => exact h.enter slot
  | read _ =>
    refine h.setStage _ fun finalized slot hstage hreached => ?_
    cases hstage
    exact hreached
  | check hread => exact h.check hread
  | drop hkept _ => exact h.drop hkept

theorem Served.step (h : w.Served) (hs : w.Sound) (hstep : Step codec w w') : w'.Served := by
  cases hstep with
  | apply raw => exact h.apply raw
  | announce hopen => exact h.announce hs hopen
  | enter slot => exact h.enter hs slot
  | read _ => exact h.read
  | check hread => exact h.check hs hread
  | drop hkept _ => exact h.drop hs hkept

theorem Reachable.sound (h : Reachable codec w) : w.Sound := by
  induction h with
  | start cache => exact sound_start cache
  | step _ hstep ih => exact ih.step hstep

theorem Reachable.served (h : Reachable codec w) : w.Served := by
  induction h with
  | start cache => exact served_start cache
  | step hbefore hstep ih => exact ih.step hbefore.sound hstep

/-- When nothing is under way, nothing is due. -/
theorem Quiet.not_due (h : w.Quiet) (listener : Listener Slot) : ¬w.Due listener := by
  rintro (hstage | ⟨events, hevents, event, hevent, -⟩)
  · rw [h.stages listener] at hstage
    exact hstage
  · rw [h.announcements events hevents] at hevent
    cases hevent

/-- A listener whose handle is kept is signalled only if the finalized commitment has reached its
slot, and, when no update is being announced and no registration is in progress, whenever it has. -/
theorem Reachable.triggered_slotListener (h : Reachable codec w) {listener : Listener Slot}
    (hlistener : listener ∈ w.handles) :
    (w.Triggered listener → w.Reached listener.key) ∧
      (w.Quiet → w.Reached listener.key → w.Triggered listener) := by
  constructor
  · exact h.sound.triggered listener hlistener
  · intro hquiet hreached
    exact (h.served listener hlistener hreached).resolve_right (hquiet.not_due listener)

/-- A codec under which all parameters and commitments decode. -/
def lenientCodec : Codec :=
  { Codec.standard with
    decodeParameters := fun _ => .ok {}
    decodeCommitment := fun _ _ => .ok {} }

/-- A status under which slot 15 is finalized. -/
def finalizingStatus : RawStatus where
  finalized := some { id := ⟨Hash.zero, 15⟩ }
  parameters := { protocolVersion := supportedVersion }

/-- The caller has entered a listener for slot 10 and has seen that nothing is finalized. -/
def looked : FinalityWorld :=
  ((start .empty).enter 10).setStage ⟨10, 0⟩ (.read none)

/-- The status comes in before the caller acts on what it saw. -/
def overtaken : FinalityWorld :=
  (looked.apply lenientCodec finalizingStatus).check ⟨10, 0⟩ none

/-- The status is announced in the end. -/
def announced : FinalityWorld :=
  { overtaken with
    waiting := overtaken.waiting.hear (.finalizedChanged ⟨⟨Hash.zero, 15⟩, {}⟩)
    announcements := [[]] }

theorem triggered_slotListener_announced :
    Reachable lenientCodec overtaken ∧ ¬overtaken.Triggered ⟨10, 0⟩ ∧
      Reachable lenientCodec announced ∧ ⟨10, 0⟩ ∈ announced.handles ∧ announced.Quiet ∧
      announced.Reached 10 ∧ announced.Triggered ⟨10, 0⟩ := by
  have hentered := (@Reachable.start lenientCodec .empty).step (.enter 10)
  have hlooked : Reachable lenientCodec looked :=
    hentered.step (.read (stages_enter_self 10 (start .empty)))
  have hstage : (looked.apply lenientCodec finalizingStatus).stages ⟨10, 0⟩ = .read none := by
    rw [stages_apply]
    exact stages_setStage_self ..
  have hovertaken : Reachable lenientCodec overtaken :=
    (hlooked.step (.apply finalizingStatus)).step (.check hstage)
  have hopen : overtaken.announcements =
      [] ++ [.finalizedChanged ⟨⟨Hash.zero, 15⟩, {}⟩] :: [] := rfl
  have hannounced : Reachable lenientCodec announced := hovertaken.step (.announce hopen)
  have hkept : (⟨10, 0⟩ : Listener Slot) ∈ announced.handles := by decide
  have hquiet : announced.Quiet := by
    constructor
    · decide
    · intro listener
      by_cases heq : listener = ⟨10, 0⟩
      · rw [heq]
        rfl
      · calc announced.stages listener
            = (looked.apply lenientCodec finalizingStatus).stages listener :=
              stages_setStage_of_ne heq ..
          _ = looked.stages listener := by rw [stages_apply]
          _ = ((start .empty).enter 10).stages listener := stages_setStage_of_ne heq ..
          _ = .idle := stages_setStage_of_ne heq ..
  have hreached : announced.Reached 10 := ⟨_, rfl, by decide⟩
  exact ⟨hovertaken, by decide, hannounced, hkept, hquiet, hreached,
    (hannounced.triggered_slotListener hkept).2 hquiet hreached⟩

end FinalityWorld

end LedgerWatch
