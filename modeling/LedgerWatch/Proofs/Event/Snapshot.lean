import LedgerWatch.Proofs.Event.History

/-!
# The hooks that a trigger runs

A trigger runs the hooks registered when it begins, whatever they do to the event meanwhile: each
once, oldest first, and no others.

## Main definitions

- `EventNote.Serves`: a trigger has run the hooks it owes a run to
- `EventNote.Settled`: every trigger that begins in some notes ends there, and serves
- `EventStory.Kept`: the event is what the notes say
- `EventStory.Extends`: what is written down while a story goes on
- `EventNote.Accounted`: what the notes of an event say of its triggers

## Main results

- `EventStory.advances_trigger`: one trigger, whatever its hooks do
- `EventStory.advances_after`: any actions on a new event
- `EventStory.performAll_tells`: every action is written down
- `EventStory.accounted_after`: every trigger runs the hooks registered when it begins

## Implementation notes

The induction is on the depth of triggers inside triggers. What a hook of an outer trigger does may
itself contain whole triggers, so the notes written while a story goes on are settled among
themselves, and of older triggers they contain exactly the runs that are owed at that place.
-/

namespace LedgerWatch

namespace EventNote

variable {β α : Type}

/-- A trigger that began after some notes has run the hooks registered then, while further notes
were written, and reached these hooks and the subscriptions alive at its end. -/
structure Serves (past : List (EventNote β α)) (t : Nat) (a : α) (during : List (EventNote β α))
    (reached : Nat) : Prop where
  runs : runsOf t during = (hooksAfter past).map (·, a)
  reached : reached =
    (hooksAfter past).length + (subscriptionsAfter (past ++ .began t a :: during)).length

/-- Every trigger that begins in the notes added to past ones ends there. It serves, and does not
run a hook before it begins or after it ends. -/
def Settled (past added : List (EventNote β α)) : Prop :=
  ∀ before t a after, added = before ++ .began t a :: after →
    runsOf t before = [] ∧ ∃ during reached rest, after = during ++ .ended t reached :: rest ∧
      Serves (past ++ before) t a during reached ∧ runsOf t rest = []

section Settled

variable {past first second during : List (EventNote β α)} {note : EventNote β α} {t reached : Nat}
  {a : α}

theorem settled_nil (past : List (EventNote β α)) : Settled past [] := by
  intro before t a after hsplit
  simp at hsplit

theorem settled_singleton (past : List (EventNote β α)) (h : ∀ t a, note ≠ .began t a) :
    Settled past [note] := by
  intro before t a after hsplit
  have hmem : EventNote.began t a ∈ [note] := hsplit ▸ by simp
  exact absurd (List.mem_singleton.mp hmem).symm (h t a)

theorem Settled.append (hfirst : Settled past first) (hsecond : Settled (past ++ first) second)
    (hlate : ∀ t a, .began t a ∈ first → runsOf t second = [])
    (hearly : ∀ t a, .began t a ∈ second → runsOf t first = []) :
    Settled past (first ++ second) := by
  intro before t a after hsplit
  -- the trigger begins in the second part, with `gap` before it there, or `gap` starts with it
  rcases List.append_eq_append_iff.mp hsplit with ⟨gap, rfl, rfl⟩ | ⟨gap, rfl, hgap⟩
  · obtain ⟨hbefore, during, reached, rest, hafter, hserves, hrest⟩ := hsecond gap t a after rfl
    rw [List.append_assoc] at hserves
    refine ⟨?_, during, reached, rest, hafter, hserves, hrest⟩
    rw [runsOf_append, hbefore, hearly t a (by simp), List.append_nil]
  · cases gap with
    | nil =>
      obtain ⟨-, during, reached, rest, hafter, hserves, hrest⟩ := hsecond [] t a after hgap.symm
      rw [List.append_nil, List.append_nil] at hserves
      have hmem : EventNote.began t a ∈ second := by
        rw [List.nil_append] at hgap
        exact hgap ▸ List.mem_cons_self
      have hearly := hearly t a hmem
      rw [List.append_nil] at hearly
      exact ⟨hearly, during, reached, rest, hafter, hserves, hrest⟩
    | cons note gap =>
      obtain ⟨rfl, rfl⟩ := List.cons.inj hgap
      obtain ⟨hbefore, during, reached, rest, rfl, hserves, hrest⟩ := hfirst before t a gap rfl
      refine ⟨hbefore, during, reached, rest ++ second, by simp, hserves, ?_⟩
      rw [runsOf_append, hrest, hlate t a (by simp), List.append_nil]

/-- A trigger around settled notes. -/
theorem Settled.trigger (hserves : Serves past t a during reached)
    (hduring : Settled (past ++ [.began t a]) during) :
    Settled past (.began t a :: (during ++ [.ended t reached])) := by
  have hended : Settled (past ++ [.began t a]) (during ++ [.ended t reached]) := by
    refine hduring.append (settled_singleton _ (by simp)) ?_ ?_
    · intro u b _
      rfl
    · intro u b hmem
      simp at hmem
  intro before u b after hsplit
  cases before with
  | nil =>
    obtain ⟨hbegan, rfl⟩ := List.cons.inj hsplit
    obtain ⟨rfl, rfl⟩ := EventNote.began.inj hbegan
    exact ⟨rfl, during, reached, [], rfl, by rwa [List.append_nil], rfl⟩
  | cons note before =>
    obtain ⟨rfl, hrest⟩ := List.cons.inj hsplit
    obtain ⟨hbefore, hends⟩ := hended before u b after hrest
    rw [List.append_assoc] at hends
    exact ⟨hbefore, hends⟩

end Settled

end EventNote

namespace Broadcast

variable {α : Type}

theorem cursors_receive (id : Nat) (c : Broadcast α) :
    (c.receive id).1.cursors.map Prod.fst = c.cursors.map Prod.fst := by
  unfold receive
  cases c.cursors.lookup id with
  | none => rfl
  | some position =>
    simp only [List.map_map]
    refine List.map_congr_left fun cursor _ => ?_
    show (if cursor.1 = id then _ else _ : Nat × Nat).1 = cursor.1
    split_ifs <;> rfl

theorem nextSubscription_receive (id : Nat) (c : Broadcast α) :
    (c.receive id).1.nextSubscription = c.nextSubscription := by
  unfold receive
  cases c.cursors.lookup id <;> rfl

/-- A payload sent reaches the subscriptions there are. -/
theorem send_snd (a : α) (c : Broadcast α) : (c.send a).2 = c.cursors.length := by
  unfold send
  split_ifs with hempty
  · rw [List.isEmpty_iff.mp hempty, List.length_nil]
  · rfl

theorem cursors_send (a : α) (c : Broadcast α) : (c.send a).1.cursors = c.cursors := by
  unfold send
  split_ifs <;> rfl

theorem nextSubscription_send (a : α) (c : Broadcast α) :
    (c.send a).1.nextSubscription = c.nextSubscription := by
  unfold send
  split_ifs <;> rfl

end Broadcast

namespace EventStory

open EventNote

variable {β α : Type} {s s' s'' : EventStory β α} {a : α}

/-! ## The event is what the notes say -/

/-- The hooks and subscriptions of the event are those of the notes, and numbers are given out in
turn. -/
structure Kept (s : EventStory β α) : Prop where
  hooks : s.event.hooks.entries = (hooksAfter s.notes).map fun hook => (hook.1, hook)
  hookNumbers : hookNumbers s.notes = List.range s.event.hooks.next
  subscriptions : s.event.channel.cursors.map Prod.fst = subscriptionsAfter s.notes
  subscriptionNumbers :
    s.notes.filterMap subscribed? = List.range s.event.channel.nextSubscription

theorem kept_ofCapacity (capacity : Nat) :
    Kept ({ event := .ofCapacity capacity } : EventStory β α) :=
  ⟨rfl, rfl, rfl, rfl⟩

theorem Kept.hook (h : s.Kept) (body : β) : (s.hook body).Kept where
  hooks := by simp [EventStory.hook, note, Hooks.register, h.hooks]
  hookNumbers := by simp [EventStory.hook, note, Hooks.register, h.hookNumbers, List.range_succ]
  subscriptions := by simp [EventStory.hook, note, h.subscriptions]
  subscriptionNumbers := by simp [EventStory.hook, note, h.subscriptionNumbers]

theorem Kept.unhook (h : s.Kept) (id : Nat) : (s.unhook id).Kept where
  hooks := by
    simp only [EventStory.unhook, note, Hooks.drop, h.hooks, hooksAfter_concat, List.filter_map,
      hooked?, Option.toList_none, List.append_nil]
    rfl
  hookNumbers := by simp [EventStory.unhook, note, Hooks.drop, h.hookNumbers]
  subscriptions := by simp [EventStory.unhook, note, h.subscriptions]
  subscriptionNumbers := by simp [EventStory.unhook, note, h.subscriptionNumbers]

theorem Kept.subscribe (h : s.Kept) : s.subscribe.Kept where
  hooks := by simp [EventStory.subscribe, note, h.hooks]
  hookNumbers := by simp [EventStory.subscribe, note, h.hookNumbers]
  subscriptions := by
    simp [EventStory.subscribe, note, Broadcast.subscribe, h.subscriptions]
  subscriptionNumbers := by
    simp [EventStory.subscribe, note, Broadcast.subscribe, h.subscriptionNumbers, List.range_succ]

theorem Kept.unsubscribe (h : s.Kept) (id : Nat) : (s.unsubscribe id).Kept where
  hooks := by simp [EventStory.unsubscribe, note, h.hooks]
  hookNumbers := by simp [EventStory.unsubscribe, note, h.hookNumbers]
  subscriptions := by
    simp only [EventStory.unsubscribe, note, Broadcast.unsubscribe, ← h.subscriptions,
      subscriptionsAfter_concat, List.filter_map, subscribed?, Option.toList_none, List.append_nil]
    rfl
  subscriptionNumbers := by
    simp [EventStory.unsubscribe, note, Broadcast.unsubscribe, h.subscriptionNumbers]

theorem Kept.receive (h : s.Kept) (id : Nat) : (s.receive id).Kept where
  hooks := h.hooks
  hookNumbers := h.hookNumbers
  subscriptions := (Broadcast.cursors_receive id s.event.channel).trans h.subscriptions
  subscriptionNumbers := by
    rw [EventStory.receive, Broadcast.nextSubscription_receive]
    exact h.subscriptionNumbers

theorem Kept.handle (h : s.Kept) (action : EventAction β α) : (s.handle action).Kept := by
  cases action with
  | hook body => exact h.hook body
  | unhook id => exact h.unhook id
  | subscribe => exact h.subscribe
  | unsubscribe id => exact h.unsubscribe id
  | receive id => exact h.receive id
  | trigger => exact h

/-- Notes about triggers say nothing of hooks and subscriptions. -/
theorem Kept.note (h : s.Kept) (what : EventNote β α) (hwhat : what.trigger?.isSome) :
    (s.note what).Kept := by
  cases what with
  | hooked | unhooked | subscribed | unsubscribed => cases hwhat
  | began | ran | ended =>
    constructor
    · simp [EventStory.note, h.hooks]
    · simp [EventStory.note, h.hookNumbers]
    · simp [EventStory.note, h.subscriptions]
    · simp [EventStory.note, h.subscriptionNumbers]

theorem Kept.send (h : s.Kept) (a : α) : Kept { s with event := (s.event.send a).1 } where
  hooks := h.hooks
  hookNumbers := h.hookNumbers
  subscriptions := by
    rw [← h.subscriptions]
    exact congrArg (List.map Prod.fst) (Broadcast.cursors_send a s.event.channel)
  subscriptionNumbers := by
    rw [h.subscriptionNumbers]
    exact congrArg List.range (Broadcast.nextSubscription_send a s.event.channel).symm

theorem Kept.start (h : s.Kept) (a : α) : (s.start a).Kept :=
  note (s := { s with triggers := s.triggers + 1 })
    ⟨h.hooks, h.hookNumbers, h.subscriptions, h.subscriptionNumbers⟩ (.began s.triggers a) rfl

/-! ## What is written while a story goes on -/

/-- A story goes on, and some notes are added. Of the triggers that had begun before, exactly the
given hooks run. The triggers that begin meanwhile are settled. -/
structure Extends (runs : Nat → List ((Nat × β) × α)) (s s' : EventStory β α)
    (added : List (EventNote β α)) : Prop where
  notes : s'.notes = s.notes ++ added
  triggers : s.triggers ≤ s'.triggers
  began : ∀ t a, .began t a ∈ added → s.triggers ≤ t ∧ t < s'.triggers
  older : ∀ t < s.triggers, runsOf t added = runs t
  newer : ∀ t ≥ s'.triggers, runsOf t added = []
  settled : Settled s.notes added

/-- A story goes on by whole triggers. -/
def Advances (s s' : EventStory β α) : Prop :=
  s'.Kept ∧ ∃ added, Extends (fun _ => []) s s' added

section Extends

variable {runs runs' : Nat → List ((Nat × β) × α)} {first second added : List (EventNote β α)}

theorem extends_nil (hnotes : s'.notes = s.notes) (htriggers : s'.triggers = s.triggers) :
    Extends (fun _ => []) s s' [] where
  notes := hnotes.trans (List.append_nil _).symm
  triggers := Nat.le_of_eq htriggers.symm
  began := by simp
  older := fun _ _ => rfl
  newer := fun _ _ => rfl
  settled := settled_nil _

theorem Extends.append (h : Extends runs s s' first) (h' : Extends runs' s' s'' second)
    (hruns : ∀ t ≥ s.triggers, runs' t = []) :
    Extends (fun t => runs t ++ runs' t) s s'' (first ++ second) where
  notes := by rw [h'.notes, h.notes, List.append_assoc]
  triggers := Nat.le_trans h.triggers h'.triggers
  began := by
    intro t a hmem
    have hle := h.triggers
    have hle' := h'.triggers
    rcases List.mem_append.mp hmem with hfirst | hsecond
    · have := h.began t a hfirst
      omega
    · have := h'.began t a hsecond
      omega
  older := by
    intro t hlt
    rw [runsOf_append, h.older t hlt, h'.older t (Nat.lt_of_lt_of_le hlt h.triggers)]
  newer := by
    intro t hge
    rw [runsOf_append, h.newer t (Nat.le_trans h'.triggers hge), h'.newer t hge, List.append_nil]
  settled := by
    refine h.settled.append (h.notes ▸ h'.settled) ?_ ?_
    · intro t a hmem
      obtain ⟨hge, hlt⟩ := h.began t a hmem
      rw [h'.older t hlt, hruns t hge]
    · intro t a hmem
      exact h.newer t (h'.began t a hmem).1

theorem Advances.refl (h : s.Kept) : Advances s s :=
  ⟨h, [], extends_nil rfl rfl⟩

theorem Advances.trans (h : Advances s s') (h' : Advances s' s'') : Advances s s'' := by
  obtain ⟨-, first, hfirst⟩ := h
  obtain ⟨hkept, second, hsecond⟩ := h'
  exact ⟨hkept, first ++ second, hfirst.append hsecond fun _ _ => rfl⟩

/-- One step after the other. -/
theorem advances_foldl {ι : Type} {f : EventStory β α → ι → EventStory β α}
    (hstep : ∀ s i, s.Kept → Advances s (f s i)) (is : List ι) (h : s.Kept) :
    Advances s (is.foldl f s) := by
  induction is generalizing s with
  | nil => exact .refl h
  | cons i is ih => exact (hstep s i h).trans (ih (hstep s i h).1)

theorem Extends.congr (h : Extends runs s s' added) (hruns : ∀ t < s.triggers, runs t = runs' t) :
    Extends runs' s s' added :=
  { h with older := fun t hlt => (h.older t hlt).trans (hruns t hlt) }

/-- One note that does not begin a trigger, and a run only for a trigger that has begun. -/
theorem extends_singleton {what : EventNote β α} (hnotes : s'.notes = s.notes ++ [what])
    (htriggers : s'.triggers = s.triggers) (hbegan : ∀ t a, what ≠ .began t a)
    (hruns : ∀ t, runsOf t [what] = runs t) (hold : ∀ t ≥ s.triggers, runs t = []) :
    Extends runs s s' [what] where
  notes := hnotes
  triggers := Nat.le_of_eq htriggers.symm
  began := by
    intro t a hmem
    exact absurd (List.mem_singleton.mp hmem).symm (hbegan t a)
  older := fun t _ => hruns t
  newer := fun t hge => (hruns t).trans (hold t (htriggers ▸ hge))
  settled := settled_singleton _ hbegan

end Extends

theorem advances_handle (h : s.Kept) (action : EventAction β α) :
    Advances s (s.handle action) := by
  refine ⟨h.handle action, ?_⟩
  cases action with
  | hook body =>
    exact ⟨[.hooked _ body], extends_singleton rfl rfl (by simp) (fun _ => rfl) fun _ _ => rfl⟩
  | unhook id =>
    exact ⟨[.unhooked id], extends_singleton rfl rfl (by simp) (fun _ => rfl) fun _ _ => rfl⟩
  | subscribe =>
    exact ⟨[.subscribed _], extends_singleton rfl rfl (by simp) (fun _ => rfl) fun _ _ => rfl⟩
  | unsubscribe id =>
    exact ⟨[.unsubscribed id], extends_singleton rfl rfl (by simp) (fun _ => rfl) fun _ _ => rfl⟩
  | receive | trigger => exact ⟨[], extends_nil rfl rfl⟩

/-! ## What a trigger does -/

section Trigger

variable {behave : β → α → List (EventStory β α → EventAction β α)}
  {perform : EventAction β α → EventStory β α → EventStory β α}

/-- The hooks run in order, and what they do meanwhile is settled. -/
theorem extends_runHooks (hperform : ∀ s action, s.Kept → Advances s (perform action s))
    (behave : β → α → List (EventStory β α → EventAction β α)) (a : α) {t : Nat}
    (hooks : List (Nat × β)) (h : s.Kept) (ht : t < s.triggers) :
    let s' := hooks.foldl (fun s hook => runHook behave perform t hook a s) s
    s'.Kept ∧ ∃ added, Extends (fun u => if u = t then hooks.map (·, a) else []) s s' added := by
  induction hooks generalizing s with
  | nil => exact ⟨h, [], (extends_nil rfl rfl).congr fun u _ => (ite_self []).symm⟩
  | cons hook hooks ih =>
    have hran : Extends (fun u => if u = t then [(hook, a)] else []) s (s.note (.ran t hook a))
        [.ran t hook a] := by
      refine extends_singleton rfl rfl (by simp) ?_ fun u hge => if_neg (by omega)
      intro u
      by_cases hu : u = t
      · simp [runsOf, hu]
      · simp [runsOf, hu, Ne.symm hu]
    -- the body may trigger the event, but such triggers are newer than `t`
    obtain ⟨hkept, acted, hacted⟩ := advances_foldl
      (fun s choose hkept => hperform s (choose s) hkept) (behave hook.2 a)
      (h.note (.ran t hook a) rfl)
    obtain ⟨hkept', added, hadded⟩ := ih hkept (Nat.lt_of_lt_of_le ht hacted.triggers)
    refine ⟨hkept', _, ((hran.append hacted fun _ _ => rfl).append hadded ?_).congr ?_⟩
    · intro u hge
      exact if_neg (by omega)
    · intro u _
      by_cases hu : u = t <;> simp [hu]

/-- A trigger as its notes tell it. -/
theorem trigger_eq (h : s.Kept) (a : α) :
    s.trigger behave perform a =
      let ran := (hooksAfter s.notes).foldl
        (fun s' hook => runHook behave perform s.triggers hook a s') (s.start a)
      note (.ended s.triggers ((hooksAfter s.notes).length + ran.event.channel.cursors.length))
        { ran with event := (ran.event.send a).1 } := by
  have hentries : (s.start a).event.hooks.entries =
      (hooksAfter s.notes).map fun hook => (hook.1, hook) := h.hooks
  simp only [trigger, Event.trigger, hentries, List.foldl_map, List.length_map, Event.send,
    Broadcast.send_snd]

/-- A trigger that began, ran the hooks and ended is one whole trigger. -/
theorem Extends.trigger {ran : EventStory β α} {during : List (EventNote β α)} {reached : Nat}
    (h : Extends (fun u => if u = s.triggers then (hooksAfter s.notes).map (·, a) else [])
      (s.start a) ran during)
    (hreached : reached = (hooksAfter s.notes).length + (subscriptionsAfter ran.notes).length)
    (hnotes : s'.notes = ran.notes ++ [.ended s.triggers reached])
    (htriggers : s'.triggers = ran.triggers) :
    Extends (fun _ => []) s s'
      (.began s.triggers a :: (during ++ [.ended s.triggers reached])) := by
  have hran : ran.notes = s.notes ++ .began s.triggers a :: during := by
    rw [h.notes]
    simp [start, note]
  have hruns : ∀ t, runsOf t (.began s.triggers a :: (during ++ [.ended s.triggers reached])) =
      runsOf t during := by
    intro t
    rw [runsOf_began, runsOf_append, runsOf_ended]
    exact List.append_nil _
  have hlt : s.triggers < ran.triggers := h.triggers
  constructor
  case notes => rw [hnotes, hran, List.append_assoc, List.cons_append]
  case triggers => omega
  case began =>
    intro t b hmem
    simp only [List.mem_cons, List.mem_append, List.not_mem_nil, reduceCtorEq, or_false,
      EventNote.began.injEq] at hmem
    rcases hmem with ⟨rfl, -⟩ | hduring
    · omega
    · have hbegan : s.triggers + 1 ≤ t ∧ t < ran.triggers := h.began t b hduring
      omega
  case older =>
    intro t hold
    rw [hruns, h.older t (Nat.lt_succ_of_lt hold)]
    exact if_neg (Nat.ne_of_lt hold)
  case newer =>
    intro t hge
    rw [hruns, h.newer t (htriggers ▸ hge)]
  case settled =>
    refine Settled.trigger ⟨?_, hran ▸ hreached⟩ ?_
    · rw [h.older s.triggers (Nat.lt_succ_self _), if_pos rfl]
    · exact h.settled

theorem extends_trigger (hperform : ∀ s action, s.Kept → Advances s (perform action s))
    (behave : β → α → List (EventStory β α → EventAction β α)) (h : s.Kept) (a : α) :
    (s.trigger behave perform a).Kept ∧ ∃ during reached,
      Extends (fun _ => []) s (s.trigger behave perform a)
        (.began s.triggers a :: (during ++ [.ended s.triggers reached])) := by
  rw [trigger_eq h]
  obtain ⟨hran, during, hduring⟩ := extends_runHooks hperform behave a (hooksAfter s.notes)
    (h.start a) (Nat.lt_succ_self s.triggers)
  refine ⟨(hran.send a).note (.ended ..) rfl, during, _, hduring.trigger ?_ rfl rfl⟩
  rw [← hran.subscriptions, List.length_map]

theorem advances_trigger (hperform : ∀ s action, s.Kept → Advances s (perform action s))
    (h : s.Kept) (a : α) : Advances s (s.trigger behave perform a) := by
  obtain ⟨hkept, during, reached, hextends⟩ := extends_trigger hperform behave h a
  exact ⟨hkept, _, hextends⟩

/-- One action, whatever the hooks do that it runs. -/
theorem advances_perform (behave : β → α → List (EventStory β α → EventAction β α)) (depth : Nat)
    (action : EventAction β α) (h : s.Kept) :
    Advances s (EventStory.perform behave depth action s) := by
  induction depth generalizing action s with
  | zero => exact advances_handle h action
  | succ depth ih =>
    cases action with
    -- what the hooks do is one level less deep
    | trigger a => exact advances_trigger (fun s action h => ih action h) h a
    | hook body => exact advances_handle h (.hook body)
    | unhook id => exact advances_handle h (.unhook id)
    | subscribe => exact advances_handle h .subscribe
    | unsubscribe id => exact advances_handle h (.unsubscribe id)
    | receive id => exact advances_handle h (.receive id)

/-- What is performed is written down. Only a trigger deeper than the given depth is not. -/
theorem perform_tells (behave : β → α → List (EventStory β α → EventAction β α)) {depth : Nat}
    {action : EventAction β α} (h : s.Kept) (hdepth : 0 < depth ∨ ∀ a, action ≠ .trigger a) :
    ∃ added, (EventStory.perform behave depth action s).notes = s.notes ++ added ∧
      s.Tells added action := by
  cases action with
  | trigger a =>
    obtain ⟨depth, rfl⟩ : ∃ d, depth = d + 1 :=
      Nat.exists_eq_add_one.mpr (hdepth.resolve_right fun hother => hother a rfl)
    obtain ⟨-, during, reached, hextends⟩ :=
      extends_trigger (fun s action h => advances_perform behave depth action h) behave h a
    exact ⟨_, hextends.notes, during, reached, rfl⟩
  | hook | unhook | subscribe | unsubscribe => cases depth <;> exact ⟨_, rfl, rfl⟩
  | receive => cases depth <;> exact ⟨[], (List.append_nil _).symm, rfl⟩

theorem advances_performAll (behave : β → α → List (EventStory β α → EventAction β α))
    (depth : Nat) (choices : List (EventStory β α → EventAction β α)) (h : s.Kept) :
    Advances s (performAll behave depth choices s) :=
  advances_foldl (fun s choose h => advances_perform behave depth (choose s) h) choices h

/-- Each of several actions is written down behind what the earlier ones made of the story. -/
theorem performAll_tells (behave : β → α → List (EventStory β α → EventAction β α)) {depth : Nat}
    {earlier later : List (EventStory β α → EventAction β α)}
    {choose : EventStory β α → EventAction β α} (h : s.Kept)
    (hdepth : 0 < depth ∨ ∀ a, choose (performAll behave depth earlier s) ≠ .trigger a) :
    ∃ added rest, (performAll behave depth (earlier ++ choose :: later) s).notes =
        (performAll behave depth earlier s).notes ++ added ++ rest ∧
      (performAll behave depth earlier s).Tells added
        (choose (performAll behave depth earlier s)) := by
  obtain ⟨hkept, -⟩ := advances_performAll behave depth earlier h
  obtain ⟨added, hnotes, htells⟩ := perform_tells behave hkept hdepth
  obtain ⟨-, rest, hrest⟩ := advances_performAll behave depth later
    (advances_perform behave depth _ hkept).1
  refine ⟨added, rest, ?_, htells⟩
  rw [← hnotes, ← hrest.notes]
  simp only [performAll, List.foldl_append, List.foldl_cons]

theorem after_eq_performAll (behave : β → α → List (EventStory β α → EventAction β α))
    (depth capacity : Nat) (actions : List (EventAction β α)) :
    after behave depth capacity actions = performAll behave depth
      (actions.map fun action _ => action) { event := .ofCapacity capacity } := by
  rw [after, performAll, List.foldl_map]

theorem advances_after (behave : β → α → List (EventStory β α → EventAction β α))
    (depth capacity : Nat) (actions : List (EventAction β α)) :
    Advances { event := .ofCapacity capacity } (after behave depth capacity actions) := by
  rw [after_eq_performAll]
  exact advances_performAll behave depth _ (kept_ofCapacity capacity)

end Trigger

end EventStory

/-! ## The account of the triggers -/

namespace EventNote

variable {β α : Type} {notes before after : List (EventNote β α)} {t : Nat} {a : α}

/-- What the notes of an event say of its triggers. -/
structure Accounted (notes : List (EventNote β α)) : Prop where
  /-- Hooks are numbered in turn, so the numbers of fewer than `2 ^ 64` hooks fit a word. -/
  numbering : EventNote.hookNumbers notes = List.range (EventNote.hookNumbers notes).length
  hookNumbers : (EventNote.hookNumbers notes).Nodup
  subscriptionNumbers : (notes.filterMap subscribed?).Nodup
  /-- Every trigger ends, and until then it runs the hooks registered when it began, in order. It
  answers with their number and that of the subscriptions alive when it sends. -/
  serves : ∀ before t a after, notes = before ++ .began t a :: after →
    ∃ during reached rest, after = during ++ .ended t reached :: rest ∧
      runsOf t during = (hooksAfter before).map (·, a) ∧
      reached = (hooksAfter before).length +
        (subscriptionsAfter (before ++ .began t a :: during)).length
  /-- A trigger runs no other hooks, before it begins or after it ends. -/
  runs : ∀ before t a after, notes = before ++ .began t a :: after →
    runsOf t notes = (hooksAfter before).map (·, a)
  once : ∀ before t a after, notes = before ++ .began t a :: after →
    ((runsOf t notes).map fun run => run.1.1).Nodup
  /-- A hook registered when a trigger has begun is first run by a later one. -/
  late : ∀ before t a after, notes = before ++ .began t a :: after →
    ∀ id body, .hooked id body ∈ after → ∀ run ∈ runsOf t notes, run.1.1 ≠ id
  /-- A hook dropped before a trigger begins is not run by it. -/
  dropped : ∀ first id body second t a after,
    notes = (first ++ .hooked id body :: second) ++ .began t a :: after → .unhooked id ∈ second →
    ∀ run ∈ runsOf t notes, run.1.1 ≠ id

theorem Settled.runs (h : Settled [] notes) (hsplit : notes = before ++ .began t a :: after) :
    runsOf t notes = (hooksAfter before).map (·, a) := by
  obtain ⟨hbefore, during, reached, rest, rfl, hserves, hrest⟩ := h before t a after hsplit
  rw [hsplit, runsOf_append, runsOf_began, runsOf_append, runsOf_ended, hbefore, hrest,
    hserves.runs, List.nil_append, List.nil_append, List.append_nil]

theorem Settled.accounts (h : Settled [] notes)
    (hnumbering : EventNote.hookNumbers notes = List.range (EventNote.hookNumbers notes).length)
    (hhooks : (EventNote.hookNumbers notes).Nodup)
    (hsubscriptions : (notes.filterMap subscribed?).Nodup) : Accounted notes where
  numbering := hnumbering
  hookNumbers := hhooks
  subscriptionNumbers := hsubscriptions
  serves := by
    intro before t a after hsplit
    obtain ⟨-, during, reached, rest, hafter, hserves, -⟩ := h before t a after hsplit
    exact ⟨during, reached, rest, hafter, hserves.runs, hserves.reached⟩
  runs := fun before t a after hsplit => h.runs hsplit
  once := by
    intro before t a after hsplit
    rw [h.runs hsplit, List.map_map]
    show ((hooksAfter before).map Prod.fst).Nodup
    refine hhooks.sublist ((hooksAfter_sublist before).trans ?_)
    rw [hsplit, hookNumbers_append]
    exact List.sublist_append_left _ _
  late := by
    rintro before t a after hsplit id body hhooked run hrun rfl
    rw [h.runs hsplit] at hrun
    obtain ⟨hook, hhook, rfl⟩ := List.mem_map.mp hrun
    rw [hsplit, hookNumbers_append] at hhooks
    have hlater : hook.1 ∈ EventNote.hookNumbers (.began t a :: after) :=
      List.mem_map.mpr ⟨(hook.1, body),
        List.mem_filterMap.mpr ⟨_, List.mem_cons_of_mem _ hhooked, rfl⟩, rfl⟩
    exact List.disjoint_of_nodup_append hhooks (fst_mem_hookNumbers hhook) hlater
  dropped := by
    intro first id body second t a after hsplit hunhooked run hrun
    rw [h.runs hsplit] at hrun
    obtain ⟨hook, hhook, rfl⟩ := List.mem_map.mp hrun
    rw [hsplit, hookNumbers_append] at hhooks
    exact fst_ne_of_unhooked hhooks.of_append_left hunhooked hhook

end EventNote

namespace EventStory

open EventNote

/-- Every trigger runs the hooks registered when it begins, each once and in the order of their
registration, and no others, whatever the hooks do to the event. Each action on the event is written
down in its turn, and so is each action of a hook that runs. Nothing is left out but triggers inside
more triggers than the given depth. -/
theorem accounted_after {β α : Type} (behave : β → α → List (EventStory β α → EventAction β α))
    (depth capacity : Nat) (actions : List (EventAction β α)) :
    Accounted (after behave depth capacity actions).notes ∧
    (∀ earlier action later, actions = earlier ++ action :: later →
      (0 < depth ∨ ∀ a, action ≠ .trigger a) →
      ∃ added rest, (after behave depth capacity actions).notes =
          (after behave depth capacity earlier).notes ++ added ++ rest ∧
        (after behave depth capacity earlier).Tells added action) ∧
    ∀ (s : EventStory β α) t hook a earlier choose later, s.Kept →
      behave hook.2 a = earlier ++ choose :: later →
      let before := performAll behave depth earlier (s.note (.ran t hook a))
      (0 < depth ∨ ∀ b, choose before ≠ .trigger b) →
      ∃ added rest, (runHook behave (perform behave depth) t hook a s).notes =
          before.notes ++ added ++ rest ∧ before.Tells added (choose before) := by
  refine ⟨?_, ?_, ?_⟩
  · obtain ⟨hkept, added, hadded⟩ := advances_after behave depth capacity actions
    have hsettled := hadded.settled
    rw [show added = _ from hadded.notes.symm] at hsettled
    refine hsettled.accounts ?_ ?_ ?_
    · rw [hkept.hookNumbers, List.length_range]
    · rw [hkept.hookNumbers]
      exact List.nodup_range
    · rw [hkept.subscriptionNumbers]
      exact List.nodup_range
  · rintro earlier action later rfl hdepth
    simp only [after_eq_performAll, List.map_append, List.map_cons]
    exact performAll_tells behave (kept_ofCapacity capacity) hdepth
  · intro s t hook a earlier choose later hkept hbody before hdepth
    rw [runHook, hbody]
    exact performAll_tells behave (hkept.note (.ran t hook a) rfl) hdepth

/-- A hook that registers another one and drops itself. -/
def replacingItself (body : String) (_ : Nat) :
    List (EventStory String Nat → EventAction String Nat) :=
  if body = "first" then [fun _ => .hook "second", fun _ => .unhook 0] else []

/-- The first of two triggers runs the hook that was there, and the second one the hook that came in
its place. -/
theorem accounted_after_replacingItself :
    let actions := [.hook "first", .subscribe, .trigger 5, .trigger 6]
    let notes := (after replacingItself 1 8 actions).notes
    notes = [.hooked 0 "first", .subscribed 0,
        .began 0 5, .ran 0 (0, "first") 5, .hooked 1 "second", .unhooked 0, .ended 0 2,
        .began 1 6, .ran 1 (1, "second") 6, .ended 1 2] ∧
      runsOf 0 notes = [((0, "first"), 5)] ∧ runsOf 1 notes = [((1, "second"), 6)] ∧
      ∃ during reached rest, notes = (after replacingItself 1 8 (actions.take 3)).notes ++
        .began 1 6 :: (during ++ .ended 1 reached :: rest) := by
  intro actions notes
  obtain ⟨haccounted, hwritten, -⟩ := accounted_after replacingItself 1 8 actions
  refine ⟨rfl, ?_, ?_, ?_⟩
  · exact haccounted.runs [.hooked 0 "first", .subscribed 0] 0 5 _ rfl
  · exact haccounted.runs [.hooked 0 "first", .subscribed 0, .began 0 5, .ran 0 (0, "first") 5,
      .hooked 1 "second", .unhooked 0, .ended 0 2] 1 6 _ rfl
  · obtain ⟨added, rest, hnotes, during, reached, rfl⟩ :=
      hwritten (actions.take 3) (.trigger 6) [] rfl (.inl Nat.one_pos)
    refine ⟨during, reached, rest, hnotes.trans ?_⟩
    simp only [List.append_assoc, List.cons_append, List.nil_append]
    rfl

end EventStory

end LedgerWatch
