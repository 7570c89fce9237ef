import LedgerWatch.Status.Cache
import Mathlib.Data.List.Basic

/-!
# The picture keeps the highest commitments

What a sequence of statuses amounts to, told from the statuses alone: the commitments that they
offer, the first of the highest among these, and those that exceed everything offered before them.
The picture of the node holds the former and announces the latter, for the latest and for the
finalized commitment on their own.

## Main definitions

- `CommitmentTrack`: the latest or the finalized commitment
- `RawStatus.accepted?`, `CommitmentTrack.offer?`: what a status offers under its own parameters
- `FirstHighest`: the first commitment of the greatest slot
- `records`: the commitments that exceed all before them
- `StatusCache.receiveAll`: the picture after a sequence of statuses, and all announcements

## Main results

- `StatusCache.apply_cases`: one status
- `StatusCache.follows_receiveAll`: what holds of the picture stays true as statuses come in
- `StatusCache.receiveAll_exact`: every sequence of statuses
-/

namespace LedgerWatch

/-- The two commitments of a node that are followed, each on its own. -/
inductive CommitmentTrack where
  | latest
  | finalized
  deriving DecidableEq

/-- The parameters of a status whose version tag is supported and whose parameters decode. -/
def RawStatus.accepted? (codec : Codec) (raw : RawStatus) : Option Parameters :=
  if raw.parameters.protocolVersion = supportedVersion then
    (codec.decodeParameters raw.parameters.params).toOption
  else none

/-- The snapshot that a status is under its parameters, with the identifiers that it announces. -/
def RawStatus.snapshot (raw : RawStatus) (api : Parameters) : NodeStatus where
  isHealthy := raw.isHealthy
  latestId := raw.latest.map (·.id)
  finalizedId := raw.finalized.map (·.id)
  pruningEpoch := raw.pruningEpoch
  parameters := api

namespace CommitmentTrack

def announced : CommitmentTrack → RawStatus → Option RawCommitment
  | latest, raw => raw.latest
  | finalized, raw => raw.finalized

/-- The commitment that a picture holds. -/
def held : CommitmentTrack → StatusCache → Option Commitment
  | latest, cache => cache.latest
  | finalized, cache => cache.finalized

/-- The commitment that an update moved to. -/
def moved : CommitmentTrack → Progress → Option Commitment
  | latest, progress => progress.latest
  | finalized, progress => progress.finalized

def event : CommitmentTrack → Commitment → StatusEvent
  | latest => .latestChanged
  | finalized => .finalizedChanged

/-- Whether the caller of an update is told that the commitment moved. -/
def changed : CommitmentTrack → Progress → Bool
  | latest => Progress.latestChanged
  | finalized => Progress.finalizedChanged

/-- The commitment of an event of this track. -/
def ofEvent? : CommitmentTrack → StatusEvent → Option Commitment
  | latest, .latestChanged commitment => some commitment
  | finalized, .finalizedChanged commitment => some commitment
  | latest, .finalizedChanged _ | finalized, .latestChanged _ => none

/-- The commitment that a status offers: it is accepted and announces one, whose data decode under
the parameters of the same status. -/
def offer? (codec : Codec) (track : CommitmentTrack) (raw : RawStatus) : Option Commitment := do
  let api ← raw.accepted? codec
  let announced ← track.announced raw
  let content ← (codec.decodeCommitment announced.data api).toOption
  return { id := announced.id, content }

/-- The commitments that statuses offer, in order. -/
def offers (codec : Codec) (track : CommitmentTrack) (raws : List RawStatus) : List Commitment :=
  raws.filterMap (track.offer? codec)

end CommitmentTrack

/-! ## Highest commitments -/

/-- The slot of the commitment is greater than those of all the others. -/
def Commitment.Exceeds (c : Commitment) (others : List Commitment) : Prop :=
  ∀ other ∈ others, other.slot < c.slot

instance (c : Commitment) (others : List Commitment) : Decidable (c.Exceeds others) :=
  inferInstanceAs (Decidable (∀ other ∈ others, other.slot < c.slot))

/-- The commitment is the first one of the greatest slot, and there is none if the list is empty. -/
def FirstHighest (cs : List Commitment) : Option Commitment → Prop
  | none => cs = []
  | some c => ∃ before after, cs = before ++ c :: after ∧ c.Exceeds before ∧
      ∀ later ∈ after, later.slot ≤ c.slot

/-- The commitments that exceed everything before them, where `earlier` came before the list. -/
def recordsAfter (earlier : List Commitment) : List Commitment → List Commitment
  | [] => []
  | c :: rest =>
    if c.Exceeds earlier then c :: recordsAfter (earlier ++ [c]) rest
    else recordsAfter (earlier ++ [c]) rest

/-- The commitments of a list that exceed all before them: its strict running maxima. -/
def records (cs : List Commitment) : List Commitment := recordsAfter [] cs

theorem recordsAfter_append (earlier cs rest : List Commitment) :
    recordsAfter earlier (cs ++ rest) =
      recordsAfter earlier cs ++ recordsAfter (earlier ++ cs) rest := by
  induction cs generalizing earlier with
  | nil => simp [recordsAfter]
  | cons c cs ih =>
    by_cases hexceeds : c.Exceeds earlier
    · simp [recordsAfter, hexceeds, ih]
    · simp [recordsAfter, hexceeds, ih]

theorem exceeds_of_mem_recordsAfter {earlier cs : List Commitment} {c : Commitment}
    (h : c ∈ recordsAfter earlier cs) : c.Exceeds earlier := by
  induction cs generalizing earlier with
  | nil => simp [recordsAfter] at h
  | cons first cs ih =>
    have hrest : c ∈ recordsAfter (earlier ++ [first]) cs → c.Exceeds earlier :=
      fun hmem other hother => ih hmem other (List.mem_append_left _ hother)
    by_cases hexceeds : first.Exceeds earlier
    · rw [recordsAfter, if_pos hexceeds] at h
      rcases List.mem_cons.mp h with rfl | hmem
      · exact hexceeds
      · exact hrest hmem
    · rw [recordsAfter, if_neg hexceeds] at h
      exact hrest h

/-- The slots of the records increase. -/
theorem pairwise_recordsAfter (earlier cs : List Commitment) :
    (recordsAfter earlier cs).Pairwise fun c later => c.slot < later.slot := by
  induction cs generalizing earlier with
  | nil => exact List.Pairwise.nil
  | cons c cs ih =>
    by_cases hexceeds : c.Exceeds earlier
    · rw [recordsAfter, if_pos hexceeds]
      refine List.Pairwise.cons (fun later hlater => ?_) (ih _)
      exact exceeds_of_mem_recordsAfter hlater c (by simp)
    · rw [recordsAfter, if_neg hexceeds]
      exact ih _

/-- The commitment lies ahead of the one known, if one is known. -/
def Commitment.aheadOf (c : Commitment) : Option Commitment → Bool
  | none => true
  | some known => known.slot < c.slot

/-- To be ahead of the highest is to exceed all. -/
theorem FirstHighest.aheadOf_iff {cs : List Commitment} {known : Option Commitment}
    (h : FirstHighest cs known) (c : Commitment) : c.aheadOf known = true ↔ c.Exceeds cs := by
  cases known with
  | none =>
    obtain rfl : cs = [] := h
    simp [Commitment.aheadOf, Commitment.Exceeds]
  | some highest =>
    obtain ⟨before, after, rfl, hbefore, hafter⟩ := h
    rw [Commitment.aheadOf, decide_eq_true_iff]
    constructor
    · intro hahead other hother
      rcases List.mem_append.mp hother with hmem | hmem
      · exact UInt32.lt_trans (hbefore other hmem) hahead
      · rcases List.mem_cons.mp hmem with rfl | hmem
        · exact hahead
        · exact UInt32.lt_of_le_of_lt (hafter other hmem) hahead
    · intro hexceeds
      exact hexceeds highest (by simp)

/-- The first highest after one more commitment. -/
theorem FirstHighest.concat {cs : List Commitment} {known : Option Commitment}
    (h : FirstHighest cs known) (c : Commitment) :
    FirstHighest (cs ++ [c]) (if c.aheadOf known then some c else known) := by
  by_cases hahead : c.aheadOf known = true
  · rw [if_pos hahead]
    exact ⟨cs, [], rfl, (h.aheadOf_iff c).mp hahead, by simp⟩
  · rw [if_neg hahead]
    cases known with
    | none => exact absurd rfl hahead
    | some highest =>
      obtain ⟨before, after, rfl, hbefore, hafter⟩ := h
      refine ⟨before, after ++ [c], by simp, hbefore, fun later hlater => ?_⟩
      rcases List.mem_append.mp hlater with hmem | hmem
      · exact hafter later hmem
      · obtain rfl := List.mem_singleton.mp hmem
        exact UInt32.not_lt.mp fun hlt => hahead (decide_eq_true hlt)

/-! ## One status -/

theorem decodeRawParameters_eq_ok_iff {codec : Codec} {raw : RawStatus} {api : Parameters} :
    decodeRawParameters codec raw.parameters = .ok api ↔ raw.accepted? codec = some api := by
  rw [decodeRawParameters, RawStatus.accepted?]
  split
  · cases codec.decodeParameters raw.parameters.params <;> simp [Except.toOption]
  · simp

/-- The commitment that replaces the one known is the one offered, if it lies ahead. -/
theorem replacement?_eq {codec : Codec} {raw : RawStatus} {api : Parameters}
    (hapi : raw.accepted? codec = some api) (track : CommitmentTrack) (known : Option Commitment) :
    replacement? codec api known (track.announced raw) =
      (track.offer? codec raw).filter (·.aheadOf known) := by
  rw [CommitmentTrack.offer?, hapi]
  cases track.announced raw with
  | none => rfl
  | some announced =>
    have hahead : ∀ content, advances known announced =
        Commitment.aheadOf ⟨announced.id, content⟩ known := by
      intro content
      cases known <;> rfl
    cases hdecode : codec.decodeCommitment announced.data api with
    | error fault =>
      simp [replacement?, decodeRawCommitment, hdecode, Except.toOption, bind, Except.bind]
    | ok content =>
      simp [replacement?, decodeRawCommitment, hdecode, hahead content, Except.toOption, bind,
        Except.bind, pure, Except.pure, Option.filter]

namespace StatusCache

/-- What a status does to a picture that accepts it under the parameters `api`. -/
structure Updates (codec : Codec) (raw : RawStatus) (api : Parameters) (before after : StatusCache)
    (progress : Progress) : Prop where
  status : after.status = some (raw.snapshot api)
  moved : ∀ track : CommitmentTrack,
    track.moved progress = (track.offer? codec raw).filter (·.aheadOf (track.held before))
  held : ∀ track : CommitmentTrack,
    track.held after = (track.moved progress).or (track.held before)

/-- A status is refused as a whole, or it updates the picture. -/
theorem apply_cases (codec : Codec) (raw : RawStatus) (cache : StatusCache) :
    (raw.accepted? codec = none ∧ ∃ fault, cache.apply codec raw = .error fault) ∨
      ∃ api after progress, raw.accepted? codec = some api ∧
        cache.apply codec raw = .ok (after, progress) ∧
        Updates codec raw api cache after progress := by
  cases hdecode : decodeRawParameters codec raw.parameters with
  | error fault =>
    refine .inl ⟨?_, fault, by simp [apply, hdecode, bind, Except.bind]⟩
    cases haccepted : raw.accepted? codec with
    | none => rfl
    | some api =>
      rw [decodeRawParameters_eq_ok_iff.mpr haccepted] at hdecode
      cases hdecode
  | ok api =>
    have haccepted := decodeRawParameters_eq_ok_iff.mp hdecode
    refine .inr ⟨api, _, _, haccepted, by rw [apply, hdecode]; rfl, rfl, ?_, ?_⟩
    · intro track
      rw [← replacement?_eq haccepted]
      cases track <;> rfl
    · intro track
      cases track <;> rfl

/-- An update moves a commitment ahead, or leaves it as it is. -/
theorem Updates.held_cases {codec : Codec} {raw : RawStatus} {api : Parameters}
    {before after : StatusCache} {progress : Progress}
    (h : Updates codec raw api before after progress) (track : CommitmentTrack) :
    (track.moved progress = none ∧ track.held after = track.held before) ∨
      ∃ c, track.moved progress = some c ∧ track.held after = some c ∧
        c.aheadOf (track.held before) = true := by
  have hheld := h.held track
  cases hmoved : track.moved progress with
  | none => exact .inl ⟨rfl, by rw [hheld, hmoved, Option.none_or]⟩
  | some c =>
    refine .inr ⟨c, rfl, by rw [hheld, hmoved, Option.some_or], ?_⟩
    rw [h.moved track] at hmoved
    exact (Option.filter_eq_some_iff.mp hmoved).2

/-! ## Every sequence of statuses -/

/-- The picture after a status, and what is announced. One that is refused changes nothing. -/
def receive (codec : Codec) (raw : RawStatus) (cache : StatusCache) :
    StatusCache × List StatusEvent :=
  match cache.apply codec raw with
  | .ok (after, progress) => (after, progress.events)
  | .error _ => (cache, [])

/-- The picture after statuses that come in one after the other, and all that is announced. -/
def receiveAll (codec : Codec) : List RawStatus → StatusCache → StatusCache × List StatusEvent
  | [], cache => (cache, [])
  | raw :: rest, cache =>
    let (after, events) := cache.receive codec raw
    let (last, later) := receiveAll codec rest after
    (last, events ++ later)

/-- The commitments of a track that are announced are those that moved. -/
theorem ofEvent?_events (track : CommitmentTrack) (progress : Progress) :
    progress.events.filterMap track.ofEvent? = (track.moved progress).toList := by
  obtain ⟨latest, finalized⟩ := progress
  cases track <;> cases latest <;> cases finalized <;> rfl

theorem event_mem_events {track : CommitmentTrack} {progress : Progress} {c : Commitment} :
    track.event c ∈ progress.events ↔ track.moved progress = some c := by
  obtain ⟨latest, finalized⟩ := progress
  cases track <;>
    simp [Progress.events, CommitmentTrack.event, CommitmentTrack.moved]

/-- The caller of an update is told of a commitment exactly if it is announced. -/
theorem changed_iff {track : CommitmentTrack} {progress : Progress} :
    track.changed progress = true ↔ ∃ c, track.event c ∈ progress.events := by
  have hchanged : track.changed progress = (track.moved progress).isSome := by
    cases track <;> rfl
  simp only [hchanged, event_mem_events, Option.isSome_iff_exists]

variable {codec : Codec} {raw : RawStatus} {cache : StatusCache} {track : CommitmentTrack}

theorem offers_append (codec : Codec) (track : CommitmentTrack) (past rest : List RawStatus) :
    track.offers codec (past ++ rest) = track.offers codec past ++ track.offers codec rest :=
  List.filterMap_append ..

theorem offers_singleton (codec : Codec) (track : CommitmentTrack) (raw : RawStatus) :
    track.offers codec [raw] = (track.offer? codec raw).toList := by
  rw [CommitmentTrack.offers, List.filterMap_cons]
  cases track.offer? codec raw <;> rfl

/-- One status keeps the first of the highest commitments, and announces the one that it offers if
this exceeds all before it. -/
theorem follows_receive {past : List RawStatus}
    (h : FirstHighest (track.offers codec past) (track.held cache)) :
    FirstHighest (track.offers codec (past ++ [raw])) (track.held (cache.receive codec raw).1) ∧
      (cache.receive codec raw).2.filterMap track.ofEvent? =
        recordsAfter (track.offers codec past) (track.offers codec [raw]) := by
  rw [offers_append, offers_singleton]
  rcases apply_cases codec raw cache with
    ⟨hrefused, fault, happly⟩ | ⟨api, after, progress, -, happly, hupdates⟩
  · have hoffer : track.offer? codec raw = none := by
      rw [CommitmentTrack.offer?, hrefused]
      rfl
    simpa [receive, happly, hoffer, recordsAfter] using h
  · simp only [receive, happly, ofEvent?_events, hupdates.held, hupdates.moved]
    cases track.offer? codec raw with
    | none => simpa [recordsAfter] using h
    | some c =>
      have hiff := h.aheadOf_iff c
      have hconcat := h.concat c
      by_cases hahead : c.aheadOf (track.held cache) = true
      · simpa [recordsAfter, Option.filter, hahead, hiff.mp hahead] using hconcat
      · have hnot : ¬ c.Exceeds (track.offers codec past) := fun hexceeds =>
          hahead (hiff.mpr hexceeds)
        simpa [recordsAfter, Option.filter, hahead, hnot] using hconcat

/-- Statuses that come in after others keep the first of the highest commitments, and announce
those that exceed all before them. -/
theorem follows_receiveAll {past : List RawStatus} (rest : List RawStatus)
    (h : FirstHighest (track.offers codec past) (track.held cache)) :
    FirstHighest (track.offers codec (past ++ rest))
        (track.held (receiveAll codec rest cache).1) ∧
      (receiveAll codec rest cache).2.filterMap track.ofEvent? =
        recordsAfter (track.offers codec past) (track.offers codec rest) := by
  induction rest generalizing past cache with
  | nil => simpa [receiveAll, recordsAfter, CommitmentTrack.offers] using h
  | cons raw rest ih =>
    obtain ⟨hheld, hevents⟩ := follows_receive h
    obtain ⟨hlast, hlater⟩ := ih hheld
    constructor
    · rw [List.append_cons]
      exact hlast
    · have hsplit : track.offers codec (raw :: rest) =
          track.offers codec [raw] ++ track.offers codec rest :=
        offers_append codec track [raw] rest
      rw [hsplit, recordsAfter_append, ← offers_append, ← hevents, ← hlater]
      exact List.filterMap_append ..

/-- After any sequence of statuses, the picture holds the first of the highest commitments that they
offer, and what was announced are the strict running maxima of these. The next status is refused,
or its snapshot is taken over as it is, and the caller is told of a commitment exactly if it is
announced, which is the one offered if it exceeds all before it. -/
theorem receiveAll_exact (codec : Codec) (raws : List RawStatus) (track : CommitmentTrack) :
    let run := receiveAll codec raws .empty
    FirstHighest (track.offers codec raws) (track.held run.1) ∧
    run.2.filterMap track.ofEvent? = records (track.offers codec raws) ∧
    (run.2.filterMap track.ofEvent?).Pairwise (fun c later => c.slot < later.slot) ∧
    ∀ raw : RawStatus, match raw.accepted? codec with
      | none => ∃ fault, run.1.apply codec raw = .error fault
      | some api => ∃ after progress, run.1.apply codec raw = .ok (after, progress) ∧
          after.status = some (raw.snapshot api) ∧
          progress.events.filterMap track.ofEvent? =
            ((track.offer? codec raw).filter (·.Exceeds (track.offers codec raws))).toList ∧
          (track.changed progress = true ↔ ∃ c, track.event c ∈ progress.events) := by
  intro run
  have hempty : FirstHighest (track.offers codec []) (track.held .empty) := by
    cases track <;> rfl
  obtain ⟨hheld, hevents⟩ := follows_receiveAll raws hempty
  rw [List.nil_append] at hheld
  refine ⟨hheld, hevents, ?_, fun raw => ?_⟩
  · rw [hevents]
    exact pairwise_recordsAfter ..
  · rcases apply_cases codec raw run.1 with
      ⟨hrefused, fault, happly⟩ | ⟨api, after, progress, haccepted, happly, hupdates⟩
    · rw [hrefused]
      exact ⟨fault, happly⟩
    · rw [haccepted]
      have hexceeds : (fun c : Commitment => c.aheadOf (track.held run.1)) =
          fun c => decide (c.Exceeds (track.offers codec raws)) := by
        funext c
        rw [Bool.eq_iff_iff, decide_eq_true_iff]
        exact hheld.aheadOf_iff c
      refine ⟨after, progress, happly, hupdates.status, ?_, ?_⟩
      · rw [ofEvent?_events, hupdates.moved, hexceeds]
      · exact changed_iff

end StatusCache

end LedgerWatch
