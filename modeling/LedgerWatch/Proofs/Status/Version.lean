import LedgerWatch.Proofs.Codec
import LedgerWatch.Proofs.Status.Refusal

/-!
# Versions in the picture

A status tells its protocol version three times: as the tag of its parameters, inside the parameters
and inside each of its commitments. The tag is compared with the supported version, and a commitment
with the parameters that it comes with. The tag and the version inside the parameters are never
compared with each other. So the picture is of the version that the last accepted parameters hold,
and of the supported one only as long as tags agree with what they are put on.

## Main definitions

- `StatusCache.Supported`: everything in a picture is of the supported version
- `RawStatus.TagAgrees`: the tag of a status is the version inside its parameters
- `StatusCache.StemsFrom`: where the versions in a picture come from

## Main results

- `StatusCache.parameters?_receiveAll`: the parameters after a sequence of statuses
- `StatusCache.stemsFrom_receiveAll`: the versions after a sequence of statuses
- `StatusCache.StemsFrom.supported`: agreeing tags keep a picture to the supported version
-/

namespace LedgerWatch

/-- The tag of the parameters is the version inside them, if they decode. -/
def RawStatus.TagAgrees (raw : RawStatus) : Prop :=
  ∀ api, Codec.standard.decodeParameters raw.parameters.params = .ok api →
    api.version = raw.parameters.protocolVersion

theorem accepted?_eq_some_iff {codec : Codec} {raw : RawStatus} {api : Parameters} :
    raw.accepted? codec = some api ↔
      raw.parameters.protocolVersion = supportedVersion ∧
        codec.decodeParameters raw.parameters.params = .ok api := by
  rw [RawStatus.accepted?]
  by_cases hversion : raw.parameters.protocolVersion = supportedVersion
  · cases codec.decodeParameters raw.parameters.params <;> simp [hversion, Except.toOption]
  · simp [hversion]

theorem RawStatus.TagAgrees.version_eq {raw : RawStatus} (h : raw.TagAgrees) {api : Parameters}
    (haccepted : raw.accepted? .standard = some api) : api.version = supportedVersion := by
  obtain ⟨hversion, hdecode⟩ := accepted?_eq_some_iff.mp haccepted
  have hagrees := h api hdecode
  rw [hagrees, hversion]

/-- A status offers what it announces, decoded under its own parameters. -/
theorem offer?_eq_some_iff {codec : Codec} {track : CommitmentTrack} {raw : RawStatus}
    {c : Commitment} :
    track.offer? codec raw = some c ↔ ∃ api announced, raw.accepted? codec = some api ∧
      track.announced raw = some announced ∧ announced.id = c.id ∧
      codec.decodeCommitment announced.data api = .ok c.content := by
  obtain ⟨id, content⟩ := c
  simp only [CommitmentTrack.offer?, Option.bind_eq_bind, Option.bind_eq_some_iff,
    toOption_eq_some_iff, Option.pure_def, Option.some.injEq, Commitment.mk.injEq]
  constructor
  · rintro ⟨api, haccepted, announced, hannounced, _, hdecode, hid, rfl⟩
    exact ⟨api, announced, haccepted, hannounced, hid, hdecode⟩
  · rintro ⟨api, announced, haccepted, hannounced, hid, hdecode⟩
    exact ⟨api, haccepted, announced, hannounced, content, hdecode, hid, rfl⟩

/-- What a status offers is of the version inside its own parameters. -/
theorem version_of_offer? {track : CommitmentTrack} {raw : RawStatus} {c : Commitment}
    (h : track.offer? .standard raw = some c) :
    ∃ api, raw.accepted? .standard = some api ∧ c.content.protocolVersion = api.version := by
  obtain ⟨api, announced, haccepted, -, -, hdecode⟩ := offer?_eq_some_iff.mp h
  exact ⟨api, haccepted, (Codec.decodeCommitmentOf_eq_ok_iff.mp hdecode).2⟩

namespace StatusCache

/-- The parameters in effect and both commitments are of the supported version. -/
structure Supported (cache : StatusCache) : Prop where
  parameters : ∀ api, cache.parameters? = some api → api.version = supportedVersion
  commitments : ∀ (track : CommitmentTrack) (c : Commitment), track.held cache = some c →
    c.content.protocolVersion = supportedVersion

/-- The parameters in effect are those of the last status that was accepted. A commitment was
offered by one of the statuses and is of the version inside that one's parameters. -/
structure StemsFrom (raws : List RawStatus) (cache : StatusCache) : Prop where
  parameters : cache.parameters? = (raws.filterMap (RawStatus.accepted? .standard)).getLast?
  commitments : ∀ (track : CommitmentTrack) (c : Commitment), track.held cache = some c →
    ∃ raw ∈ raws, ∃ api, raw.accepted? .standard = some api ∧
      track.offer? .standard raw = some c ∧ c.content.protocolVersion = api.version

variable {codec : Codec} {raw : RawStatus} {raws : List RawStatus} {cache : StatusCache}
  {track : CommitmentTrack} {c : Commitment}

/-! ## A sequence of statuses -/

theorem parameters?_receive (codec : Codec) (raw : RawStatus) (cache : StatusCache) :
    (cache.receive codec raw).1.parameters? = (raw.accepted? codec).or cache.parameters? := by
  rcases apply_cases codec raw cache with
    ⟨hrefused, fault, happly⟩ | ⟨api, after, progress, haccepted, happly, hupdates⟩
  · simp [receive, happly, hrefused]
  · simp [receive, happly, haccepted, parameters?, hupdates.status, RawStatus.snapshot]

theorem parameters?_receiveAll (codec : Codec) (raws : List RawStatus) (cache : StatusCache) :
    (receiveAll codec raws cache).1.parameters? =
      (raws.filterMap (RawStatus.accepted? codec)).getLast?.or cache.parameters? := by
  induction raws generalizing cache with
  | nil => rfl
  | cons raw rest ih =>
    have hlater := ih (cache.receive codec raw).1
    rw [parameters?_receive] at hlater
    change (receiveAll codec rest (cache.receive codec raw).1).1.parameters? = _
    rw [hlater]
    cases haccepted : raw.accepted? codec with
    | none => simp [haccepted]
    | some api =>
      -- the last of what follows, and if nothing is accepted there, this one
      cases hlast : (rest.filterMap (RawStatus.accepted? codec)).getLast? <;>
        simp [haccepted, List.getLast?_cons, hlast]

theorem held_receive (h : track.held (cache.receive codec raw).1 = some c) :
    track.offer? codec raw = some c ∨ track.held cache = some c := by
  rcases apply_cases codec raw cache with
    ⟨-, fault, happly⟩ | ⟨api, after, progress, -, happly, hupdates⟩
  · simp only [receive, happly] at h
    exact .inr h
  · simp only [receive, happly] at h
    rcases hupdates.held_cases track with ⟨-, hstays⟩ | ⟨new, hmoved, hheld, -⟩
    · exact .inr (hstays ▸ h)
    · have hoffered := hmoved
      rw [hupdates.moved track] at hoffered
      obtain ⟨hoffer, -⟩ := Option.filter_eq_some_iff.mp hoffered
      rw [hheld] at h
      exact .inl (hoffer.trans h)

/-- A picture without a commitment takes over whatever a status offers. -/
theorem held_receive_of_none (h : track.held cache = none) :
    track.held (cache.receive codec raw).1 = track.offer? codec raw := by
  rcases apply_cases codec raw cache with
    ⟨hrefused, fault, happly⟩ | ⟨api, after, progress, -, happly, hupdates⟩
  · simp [receive, happly, h, CommitmentTrack.offer?, hrefused]
  · simp only [receive, happly, hupdates.held, hupdates.moved, h, Option.or_none]
    cases track.offer? codec raw <;> rfl

/-- A commitment in the picture was there from the beginning, or one of the statuses offered it. -/
theorem held_receiveAll (h : track.held (receiveAll codec raws cache).1 = some c) :
    (∃ raw ∈ raws, track.offer? codec raw = some c) ∨ track.held cache = some c := by
  induction raws generalizing cache with
  | nil => exact .inr h
  | cons raw rest ih =>
    have hrest : track.held (receiveAll codec rest (cache.receive codec raw).1).1 = some c := h
    rcases ih hrest with ⟨later, hlater, hoffer⟩ | hheld
    · exact .inl ⟨later, List.mem_cons_of_mem raw hlater, hoffer⟩
    · rcases held_receive hheld with hoffer | hbefore
      · exact .inl ⟨raw, List.mem_cons_self, hoffer⟩
      · exact .inr hbefore

theorem stemsFrom_receiveAll (raws : List RawStatus) :
    StemsFrom raws (receiveAll .standard raws .empty).1 where
  parameters := by
    rw [parameters?_receiveAll]
    exact Option.or_none
  commitments := by
    intro track c hheld
    rcases held_receiveAll hheld with ⟨raw, hraw, hoffer⟩ | hempty
    · obtain ⟨api, haccepted, hversion⟩ := version_of_offer? hoffer
      exact ⟨raw, hraw, api, haccepted, hoffer, hversion⟩
    · cases track <;> cases hempty

/-- As long as the tags agree with the parameters, a picture is of the supported version. -/
theorem StemsFrom.supported (h : StemsFrom raws cache)
    (hagree : ∀ raw ∈ raws, raw.TagAgrees) : cache.Supported where
  parameters := by
    intro api hapi
    rw [h.parameters] at hapi
    have hmem := List.mem_of_getLast? hapi
    obtain ⟨raw, hraw, haccepted⟩ := List.mem_filterMap.mp hmem
    exact (hagree raw hraw).version_eq haccepted
  commitments := by
    intro track c hheld
    obtain ⟨raw, hraw, api, haccepted, -, hversion⟩ := h.commitments track c hheld
    rw [hversion]
    exact (hagree raw hraw).version_eq haccepted

end StatusCache

/-! ## Connections -/

namespace Connection

variable {codec : Codec} {settings : ConnectionSettings} {node : Node} {c : Connection}

theorem apply_of_checkStatus {raw : RawStatus} {cache : StatusCache}
    (h : checkStatus codec settings raw = .ok cache) :
    ∃ progress, StatusCache.empty.apply codec raw = .ok (cache, progress) := by
  obtain ⟨api, -, hchecks⟩ := bind_eq_ok_iff.mp h
  have happlied : (StatusCache.empty.apply codec raw >>= fun applied => pure applied.1) =
      Except.ok cache := by
    cases hrequired : settings.requiredNetwork? with
    | none => simpa only [hrequired] using hchecks
    | some target =>
      simp only [hrequired, throw_bind_eq_ok_iff] at hchecks
      exact hchecks.2
  obtain ⟨⟨after, progress⟩, happly, hafter⟩ := bind_eq_ok_iff.mp happlied
  obtain rfl := Except.ok.inj hafter
  exact ⟨progress, happly⟩

/-- The picture of a new connection is what the node's first status makes of the empty one. -/
theorem cache_of_connect (h : connect codec settings node = .ok c) :
    ∃ first, node.readStatus = .ok first ∧ c.codec = codec ∧
      c.cache = (StatusCache.receiveAll codec [first] .empty).1 := by
  obtain ⟨first, hfirst, hrest⟩ := bind_eq_ok_iff.mp h
  obtain ⟨cache, hcache, hc⟩ := bind_eq_ok_iff.mp hrest
  obtain rfl := Except.ok.inj hc
  have hread : node.readStatus = .ok first := by
    cases hanswer : node.readStatus with
    | error status => simp [answered, hanswer, Except.mapError] at hfirst
    | ok raw => simpa [answered, hanswer, Except.mapError] using hfirst
  refine ⟨first, hread, rfl, ?_⟩
  obtain ⟨progress, happly⟩ := apply_of_checkStatus hcache
  simp [StatusCache.receiveAll, StatusCache.receive, happly]

/-- The connection after the statuses of a stream. -/
def receiveStatuses (raws : List RawStatus) (c : Connection) : Connection :=
  raws.foldl (fun c raw => (c.receiveStatus raw).1) c

theorem receiveStatuses_eq (raws : List RawStatus) (c : Connection) :
    c.receiveStatuses raws =
      { c with cache := (StatusCache.receiveAll c.codec raws c.cache).1 } := by
  induction raws generalizing c with
  | nil => rfl
  | cons raw rest ih =>
    have hrest := ih (c.receiveStatus raw).1
    rw [receiveStatus_eq] at hrest
    change (c.receiveStatus raw).1.receiveStatuses rest = _
    rw [receiveStatus_eq]
    exact hrest

theorem cache_receiveStatuses (raws : List RawStatus) (c : Connection) :
    (c.receiveStatuses raws).cache = (StatusCache.receiveAll c.codec raws c.cache).1 := by
  rw [receiveStatuses_eq]

theorem codec_receiveStatuses (raws : List RawStatus) (c : Connection) :
    (c.receiveStatuses raws).codec = c.codec := by
  rw [receiveStatuses_eq]

theorem stemsFrom_receiveStatuses (h : connect .standard settings node = .ok c)
    (raws : List RawStatus) :
    ∃ first, node.readStatus = .ok first ∧
      StatusCache.StemsFrom (first :: raws) (c.receiveStatuses raws).cache := by
  obtain ⟨first, hread, hcodec, hcache⟩ := cache_of_connect h
  refine ⟨first, hread, ?_⟩
  rw [cache_receiveStatuses, hcodec, hcache]
  exact StatusCache.stemsFrom_receiveAll (first :: raws)

end Connection

/-- After any statuses the parameters in effect are those of the last one that was accepted, and
each commitment is of the version inside the parameters that it came with. Nothing but the tag of
its parameters keeps a status of another version out; with another tag it is refused and changes
nothing. If all tags agree with what they are put on, the picture is of the supported version. The
same holds of a connection, whose first status is the one that it was opened with. -/
theorem StatusCache.versions_after (raws : List RawStatus) :
    (let cache := (receiveAll .standard raws .empty).1
     StemsFrom raws cache ∧
      ((∀ raw ∈ raws, raw.TagAgrees) → cache.Supported) ∧
      ∀ raw : RawStatus, raw.parameters.protocolVersion ≠ supportedVersion →
        cache.apply .standard raw =
          .error (.unsupportedVersion raw.parameters.protocolVersion supportedVersion) ∧
        cache.receive .standard raw = (cache, [])) ∧
    ∀ settings node c, Connection.connect .standard settings node = .ok c →
      ∃ first, node.readStatus = .ok first ∧
        StemsFrom (first :: raws) (c.receiveStatuses raws).cache ∧
        ((∀ raw ∈ first :: raws, raw.TagAgrees) → (c.receiveStatuses raws).cache.Supported) := by
  refine ⟨⟨stemsFrom_receiveAll raws, (stemsFrom_receiveAll raws).supported, ?_⟩, ?_⟩
  · intro raw hversion
    have hrefused : (receiveAll .standard raws .empty).1.apply .standard raw =
        .error (.unsupportedVersion raw.parameters.protocolVersion supportedVersion) :=
      apply_eq_error_iff.mpr (.inl ⟨hversion, rfl⟩)
    refine ⟨hrefused, ?_⟩
    rw [receive, hrefused]
  · intro settings node c hconnect
    obtain ⟨first, hread, hstems⟩ := Connection.stemsFrom_receiveStatuses hconnect raws
    exact ⟨first, hread, hstems, hstems.supported⟩

/-- A status whose parameters and latest commitment are of one version, under a tag. -/
def RawStatus.ofVersion (tag inside : UInt8) (slot : Slot) : RawStatus :=
  { latest := some ⟨⟨Hash.zero, slot⟩, Wire.commitment.encode { protocolVersion := inside, slot }⟩
    parameters := ⟨tag, Wire.parameters.encode { version := inside }⟩ }

theorem decodeParameters_ofVersion (tag inside : UInt8) (slot : Slot) :
    Codec.standard.decodeParameters (RawStatus.ofVersion tag inside slot).parameters.params =
      .ok { version := inside } := by
  have hfits : Wire.FitsLength (Utf8.encode "testnet").length ∧
      Wire.FitsLength (Utf8.encode "rms").length := by
    unfold Wire.FitsLength
    decide
  exact Codec.standard_decodeParameters_eq_ok_iff.mpr ⟨hfits, rfl⟩

theorem tagAgrees_ofVersion (version : UInt8) (slot : Slot) :
    (RawStatus.ofVersion version version slot).TagAgrees := by
  intro api hapi
  rw [decodeParameters_ofVersion] at hapi
  obtain rfl := Except.ok.inj hapi
  rfl

/-- Of two statuses the second has another tag. It is refused, and the picture stays supported. -/
theorem StatusCache.versions_after_otherTag :
    let cache := (receiveAll .standard
      [.ofVersion supportedVersion supportedVersion 5, .ofVersion 2 2 6] .empty).1
    cache.Supported ∧
      cache.apply .standard (.ofVersion 2 2 7) =
        .error (.unsupportedVersion 2 supportedVersion) := by
  obtain ⟨⟨-, hsupported, hrefused⟩, -⟩ := versions_after
    [.ofVersion supportedVersion supportedVersion 5, .ofVersion 2 2 6]
  have hagree : ∀ raw ∈ [RawStatus.ofVersion supportedVersion supportedVersion 5, .ofVersion 2 2 6],
      raw.TagAgrees := by
    intro raw hraw
    rcases List.mem_pair.mp hraw with rfl | rfl
    · exact tagAgrees_ofVersion supportedVersion 5
    · exact tagAgrees_ofVersion 2 6
  have hother : (RawStatus.ofVersion 2 2 7).parameters.protocolVersion ≠ supportedVersion := by
    decide
  exact ⟨hsupported hagree, (hrefused _ hother).1⟩

/-- Under the supported tag a status of any version is taken over, with its commitment. -/
theorem StatusCache.receiveAll_ofVersion (version : UInt8) (slot : Slot) :
    let cache := (receiveAll .standard [.ofVersion supportedVersion version slot] .empty).1
    cache.parameters? = some { version } ∧
      cache.latest = some ⟨⟨Hash.zero, slot⟩, { protocolVersion := version, slot }⟩ := by
  have hdecode := decodeParameters_ofVersion supportedVersion version slot
  have haccepted : (RawStatus.ofVersion supportedVersion version slot).accepted? .standard =
      some { version } := accepted?_eq_some_iff.mpr ⟨rfl, hdecode⟩
  have hcontent : Codec.standard.decodeCommitment
      (Wire.commitment.encode { protocolVersion := version, slot }) { version } =
        .ok { protocolVersion := version, slot } :=
    Codec.decodeCommitmentOf_eq_ok_iff.mpr ⟨rfl, rfl⟩
  have hoffer : CommitmentTrack.latest.offer? .standard
      (.ofVersion supportedVersion version slot) =
        some ⟨⟨Hash.zero, slot⟩, { protocolVersion := version, slot }⟩ := by
    rw [CommitmentTrack.offer?, haccepted]
    simp [CommitmentTrack.announced, RawStatus.ofVersion, hcontent, Except.toOption]
  -- only what is accepted and offered matters from here on, not the bytes
  generalize RawStatus.ofVersion supportedVersion version slot = raw at haccepted hoffer ⊢
  constructor
  · have hlast := parameters?_receiveAll .standard [raw] .empty
    simpa [haccepted] using hlast
  · have hnone : CommitmentTrack.latest.held .empty = none := rfl
    exact (held_receive_of_none hnone).trans hoffer

/-- One status under the supported tag brings a picture to version 2. -/
theorem StatusCache.receiveAll_ofVersion_two :
    let cache := (receiveAll .standard [.ofVersion supportedVersion 2 5] .empty).1
    cache.parameters? = some { version := 2 } ∧
      cache.latest = some ⟨⟨Hash.zero, 5⟩, { protocolVersion := 2, slot := 5 }⟩ ∧
      ¬ cache.Supported := by
  obtain ⟨hparameters, hlatest⟩ := receiveAll_ofVersion 2 5
  refine ⟨hparameters, hlatest, ?_⟩
  intro hsupported
  have hversion := hsupported.parameters _ hparameters
  exact absurd hversion (by decide)

end LedgerWatch
