import LedgerWatch.Event
import LedgerWatch.Proofs.Status.Listener

/-!
# Hooks on the commitments

The hooks of the two events of a status cache run while a status is applied. They may look at the
cache, and they may change anything but the cache: register and drop hooks of either event, too.

## Main definitions

- `HookReach`: what the hooks may change, `StatusHub`: that, the cache, and what was noted of hooks
- `StatusHub.firings`: events that are fired, each with the hooks registered then
- `StatusHub.receive`: a status is applied, and the events of what moved are fired
- `HubNote.firing`: an event fires, and its hooks look at the cache
- `StatusHub.Announces`: what is fired between two caches

## Main results

- `StatusHub.notes_fire`: one event
- `StatusHub.receive_announces`: a status that is accepted
- `StatusHub.receive_watched`: the hub with one hook on each event is the rehearsal of the cache
-/

namespace LedgerWatch

namespace StatusEvent

def track : StatusEvent → CommitmentTrack
  | latestChanged _ => .latest
  | finalizedChanged _ => .finalized

def commitment : StatusEvent → Commitment
  | latestChanged commitment | finalizedChanged commitment => commitment

end StatusEvent

/-- What the hooks of a cache may change, with bodies of type `β` and anything else in `τ`. -/
structure HookReach (β τ : Type) where
  latestChanged : Event β Commitment
  finalizedChanged : Event β Commitment
  rest : τ

namespace HookReach

variable {β τ : Type}

def event (track : CommitmentTrack) (reach : HookReach β τ) : Event β Commitment :=
  match track with
  | .latest => reach.latestChanged
  | .finalized => reach.finalizedChanged

def putEvent (track : CommitmentTrack) (event : Event β Commitment) (reach : HookReach β τ) :
    HookReach β τ :=
  match track with
  | .latest => { reach with latestChanged := event }
  | .finalized => { reach with finalizedChanged := event }

end HookReach

/-- An event fires or one of its hooks runs, and the cache is as it is then. -/
inductive HubNote (β : Type) where
  | fired (event : StatusEvent) (cache : StatusCache)
  | ran (track : CommitmentTrack) (hook : β) (passed : Commitment) (cache : StatusCache)

/-- An event fires, and each of some hooks looks at the cache as it is then. -/
def HubNote.firing {β : Type} (cache : StatusCache) (event : StatusEvent) (hooks : List β) :
    List (HubNote β) :=
  .fired event cache :: hooks.map fun hook => .ran event.track hook event.commitment cache

/-- What a hook that looks at the cache reports of it. -/
def HubNote.observation? {β : Type} : HubNote β → Option StatusRehearsal.Observation
  | .fired _ _ => none
  | .ran .latest _ passed cache => some ⟨.latestChanged passed, cache⟩
  | .ran .finalized _ passed cache => some ⟨.finalizedChanged passed, cache⟩

/-- A cache with its events, and what happened. -/
structure StatusHub (β τ : Type) where
  cache : StatusCache
  reach : HookReach β τ
  notes : List (HubNote β) := []

namespace StatusHub

variable {β τ : Type}

section Receive

-- what a body does with the commitment that it is passed and the cache that it sees
variable (act : β → Commitment → StatusCache → HookReach β τ → HookReach β τ)

def runHook (track : CommitmentTrack) (hook : β) (passed : Commitment) (hub : StatusHub β τ) :
    StatusHub β τ :=
  { hub with
    reach := act hook passed hub.cache hub.reach
    notes := hub.notes ++ [.ran track hook passed hub.cache] }

/-- Fires an event with its commitment. -/
def fire (event : StatusEvent) (hub : StatusHub β τ) : StatusHub β τ :=
  (Event.trigger (runHook act event.track) (fun hub => hub.reach.event event.track)
    (fun changed hub => { hub with reach := hub.reach.putEvent event.track changed })
    event.commitment { hub with notes := hub.notes ++ [.fired event hub.cache] }).1

/-- The hooks of an event that are registered now, oldest first. -/
def registered (event : StatusEvent) (hub : StatusHub β τ) : List β :=
  (hub.reach.event event.track).hooks.entries.map Prod.snd

/-- Events that are fired one after the other, each with the hooks that are registered when its
turn comes. -/
def firings : List StatusEvent → StatusHub β τ → List (StatusEvent × List β)
  | [], _ => []
  | event :: events, hub => (event, hub.registered event) :: firings events (hub.fire act event)

/-- Applies a status. When the whole update is in place, the events of what moved are fired. -/
def receive (codec : Codec) (raw : RawStatus) (hub : StatusHub β τ) :
    StatusHub β τ × Except Fault Progress :=
  match hub.cache.apply codec raw with
  | .error fault => (hub, .error fault)
  | .ok (cache, progress) =>
    (progress.events.foldl (fun hub event => hub.fire act event) { hub with cache }, .ok progress)

end Receive

/-- What is fired when one cache takes the place of another: the commitments that were replaced,
each once, and the latest one first. -/
structure Announces (before after : StatusCache) (events : List StatusEvent) : Prop where
  held : ∀ event ∈ events, event.track.held after = some event.commitment
  order : (events.map StatusEvent.track).Sublist [.latest, .finalized]
  replaced : ∀ track : CommitmentTrack,
    track ∈ events.map StatusEvent.track ↔ track.held after ≠ track.held before

/-! ## One event -/

variable {act : β → Commitment → StatusCache → HookReach β τ → HookReach β τ}

theorem cache_runHooks (track : CommitmentTrack) (passed : Commitment) (hooks : List (Nat × β))
    (hub : StatusHub β τ) :
    (hooks.foldl (fun hub hook => hub.runHook act track hook.2 passed) hub).cache = hub.cache := by
  induction hooks generalizing hub with
  | nil => rfl
  | cons hook hooks ih => exact ih _

theorem notes_runHooks (track : CommitmentTrack) (passed : Commitment) (hooks : List (Nat × β))
    (hub : StatusHub β τ) :
    (hooks.foldl (fun hub hook => hub.runHook act track hook.2 passed) hub).notes =
      hub.notes ++ hooks.map fun hook => .ran track hook.2 passed hub.cache := by
  induction hooks generalizing hub with
  | nil => exact (List.append_nil _).symm
  | cons hook hooks ih =>
    rw [List.foldl_cons, ih, List.map_cons, List.append_cons]
    rfl

theorem cache_fire (event : StatusEvent) (hub : StatusHub β τ) :
    (hub.fire act event).cache = hub.cache :=
  cache_runHooks event.track event.commitment _ _

/-- The hooks that are registered when an event fires all see the same cache. -/
theorem notes_fire (event : StatusEvent) (hub : StatusHub β τ) :
    (hub.fire act event).notes =
      hub.notes ++ HubNote.firing hub.cache event (hub.registered event) := by
  refine (notes_runHooks event.track event.commitment _ _).trans ?_
  simp [HubNote.firing, registered, List.map_map, Function.comp_def]

theorem map_fst_firings (events : List StatusEvent) (hub : StatusHub β τ) :
    (firings act events hub).map Prod.fst = events := by
  induction events generalizing hub with
  | nil => rfl
  | cons event events ih => rw [firings, List.map_cons, ih]

/-- Several events fire one after the other, and the cache stays as it is. -/
theorem notes_foldl_fire (act : β → Commitment → StatusCache → HookReach β τ → HookReach β τ)
    (events : List StatusEvent) (hub : StatusHub β τ) :
    let after := events.foldl (fun hub event => hub.fire act event) hub
    after.cache = hub.cache ∧ after.notes = hub.notes ++
      (firings act events hub).flatMap fun firing =>
        HubNote.firing hub.cache firing.1 firing.2 := by
  induction events generalizing hub with
  | nil => exact ⟨rfl, (List.append_nil _).symm⟩
  | cons event events ih =>
    obtain ⟨hcache, hnotes⟩ := ih (hub.fire act event)
    rw [cache_fire] at hcache hnotes
    refine ⟨hcache, ?_⟩
    rw [List.foldl_cons, hnotes, notes_fire, firings, List.flatMap_cons, List.append_assoc]

/-! ## A whole status -/

theorem track_mem_events {progress : Progress} {track : CommitmentTrack} :
    track ∈ progress.events.map StatusEvent.track ↔ (track.moved progress).isSome := by
  obtain ⟨latest, finalized⟩ := progress
  cases track <;> cases latest <;> cases finalized <;>
    simp [Progress.events, CommitmentTrack.moved, StatusEvent.track]

/-- An update announces what it moves, which is what it replaces. -/
theorem announces_of_updates {codec : Codec} {raw : RawStatus} {api : Parameters}
    {before after : StatusCache} {progress : Progress}
    (h : StatusCache.Updates codec raw api before after progress) :
    Announces before after progress.events where
  held := by
    intro event hevent
    have hmoved : event.track.moved progress = some event.commitment := by
      rw [← StatusCache.event_mem_events]
      cases event <;> exact hevent
    rw [h.held, hmoved, Option.some_or]
  order := by
    obtain ⟨latest, finalized⟩ := progress
    cases latest <;> cases finalized <;> simp [Progress.events, StatusEvent.track]
  replaced := by
    intro track
    rw [track_mem_events]
    rcases h.held_cases track with ⟨hmoved, hheld⟩ | ⟨c, hmoved, hheld, hahead⟩
    · simp [hmoved, hheld]
    · refine iff_of_true (by rw [hmoved]; rfl) ?_
      rw [hheld]
      intro hsame
      -- no commitment lies ahead of itself
      rw [← hsame] at hahead
      exact absurd (of_decide_eq_true hahead) (UInt32.lt_irrefl _)

/-- A hub whose hooks look at the cache and do nothing else, one on each event. -/
def watched (cache : StatusCache) : StatusHub Unit Unit where
  cache := cache
  reach :=
    { latestChanged := { hooks := (Hooks.register () {}).1, channel := .ofCapacity 1 }
      finalizedChanged := { hooks := (Hooks.register () {}).1, channel := .ofCapacity 1 }
      rest := () }

/-- A status that is accepted changes the cache as a whole, and only then are the events of what it
replaced fired. The hooks that are registered when an event fires run, each once. Every one of them
sees the cache that the call leaves behind, and is passed the commitment held there. -/
theorem receive_announces {codec : Codec} {raw : RawStatus}
    (haccepted : raw.isAccepted codec = true)
    (act : β → Commitment → StatusCache → HookReach β τ → HookReach β τ) (hub : StatusHub β τ) :
    ∃ after progress, ∃ fired : List (StatusEvent × List β),
      hub.receive act codec raw = (after, .ok progress) ∧
      hub.cache.apply codec raw = .ok (after.cache, progress) ∧
      fired = firings act progress.events { hub with cache := after.cache } ∧
      after.notes = hub.notes ++ (fired.flatMap fun firing =>
        HubNote.firing after.cache firing.1 firing.2) ∧
      Announces hub.cache after.cache (fired.map Prod.fst) ∧
      ∀ track : CommitmentTrack,
        track.changed progress = true ↔ track.held after.cache ≠ track.held hub.cache := by
  rcases StatusCache.apply_cases codec raw hub.cache with
    ⟨hrefused, -⟩ | ⟨api, cache, progress, -, happly, hupdates⟩
  · rw [RawStatus.isAccepted, hrefused] at haccepted
    cases haccepted
  · obtain ⟨hcache, hnotes⟩ := notes_foldl_fire act progress.events { hub with cache }
    have hannounces := announces_of_updates hupdates
    refine ⟨_, progress, _, by rw [receive, happly], ?_, rfl, ?_, ?_, ?_⟩
    · rw [happly, hcache]
    · rw [hnotes, hcache]
    · rw [map_fst_firings, hcache]
      exact hannounces
    · intro track
      rw [hcache, ← hannounces.replaced track, track_mem_events]
      cases track <;> rfl

/-- The first status of a node moves both commitments, and the hooks of both events see them. -/
theorem receive_announces_first :
    let raw : RawStatus :=
      { RawStatus.atSlot 4 supportedVersion [] [] with finalized := some ⟨⟨Hash.zero, 2⟩, []⟩ }
    ∃ after progress, ∃ fired : List (StatusEvent × List Unit),
      (watched .empty).receive (fun _ _ _ reach => reach) .emptyOnly raw = (after, .ok progress) ∧
      after.notes = fired.flatMap (fun firing =>
        HubNote.firing after.cache firing.1 firing.2) ∧
      (∀ track : CommitmentTrack, track ∈ (fired.map Prod.fst).map StatusEvent.track) ∧
      fired.map Prod.snd = [[()], [()]] ∧
      after.cache.latest = some ⟨⟨Hash.zero, 4⟩, {}⟩ ∧
      after.cache.finalized = some ⟨⟨Hash.zero, 2⟩, {}⟩ := by
  intro raw
  have haccepted : raw.isAccepted .emptyOnly = true := rfl
  obtain ⟨after, progress, fired, hreceive, -, hfired, hnotes, hannounces, -⟩ :=
    receive_announces haccepted (fun _ _ _ reach => reach) (watched .empty)
  have hafter : ((watched .empty).receive (fun _ _ _ reach => reach) .emptyOnly raw).1 = after :=
    congrArg Prod.fst hreceive
  have hprogress :
      ((watched .empty).receive (fun _ _ _ reach => reach) .emptyOnly raw).2 = .ok progress :=
    congrArg Prod.snd hreceive
  refine ⟨after, progress, fired, hreceive, hnotes, ?_, ?_, hafter ▸ rfl, hafter ▸ rfl⟩
  · intro track
    rw [hannounces.replaced track, ← hafter]
    cases track <;> exact Option.some_ne_none _
  · obtain rfl := Except.ok.inj hprogress
    rw [hfired]
    rfl

theorem receive_watched (codec : Codec) (raw : RawStatus) (cache : StatusCache) :
    let (hub, answer) := (watched cache).receive (fun _ _ _ reach => reach) codec raw
    StatusRehearsal.apply codec raw cache =
      (hub.cache, hub.notes.filterMap HubNote.observation?, answer) := by
  have hcache : (watched cache).cache = cache := rfl
  simp only [receive, StatusRehearsal.apply, hcache]
  cases cache.apply codec raw with
  | error => rfl
  | ok update =>
    obtain ⟨after, latest, finalized⟩ := update
    cases latest <;> cases finalized <;> rfl

end StatusHub

end LedgerWatch
