import LedgerWatch.Fixture
import LedgerWatch.Proofs.Status.Version

/-!
# Commitments as they were sent

A commitment comes as an identifier and as data, and both tell its slot. The identifier is kept as
the node claims it, the data are decoded, and the two slots are never compared. So whatever is
handed out repeats something that was sent, and its slots agree exactly if the node made them agree.
By the slot of the identifier the picture advances and queries are answered, whatever is inside.

## Main definitions

- `Commitment.Consistent`, `RawCommitment.Consistent`: the slot inside is that of the identifier
- `Commitment.Repeats`: the identifier and the data are as they were sent
- `Connection.HandsOut`: what a connection holds, announces or answers queries with
- `Connection.Sends`: what the node put into its statuses or stores

## Main results

- `StatusCache.offer?_standard_iff`, `Connection.checkCommitment_standard_iff`: what decodes is
  handed out as it was sent
- `Connection.HandsOut.repeats`: everything that is handed out
- `Connection.commitments_repeated`: what agrees with its identifier, and what follows from it
-/

namespace LedgerWatch

/-- The slot inside the commitment is that of its identifier. -/
def Commitment.Consistent (c : Commitment) : Prop := c.content.slot = c.slot

/-- The slot inside the data, if they decode, is that of the identifier. -/
def RawCommitment.Consistent (sent : RawCommitment) : Prop :=
  ∀ content, Wire.commitment.decode sent.data = .ok content → content.slot = sent.id.slot

/-- The identifier is the one that was sent, and the content encodes to the data that were. -/
structure Commitment.Repeats (c : Commitment) (sent : RawCommitment) : Prop where
  id_eq : c.id = sent.id
  encode_eq : Wire.commitment.encode c.content = sent.data

theorem Commitment.Repeats.consistent_iff {c : Commitment} {sent : RawCommitment}
    (h : c.Repeats sent) : c.Consistent ↔ sent.Consistent := by
  have hdecode : Wire.commitment.decode sent.data = .ok c.content :=
    Wire.exact_commitment.decode_eq_ok_iff.mpr ⟨trivial, h.encode_eq⟩
  rw [Commitment.Consistent, Commitment.slot, h.id_eq]
  constructor
  · intro hslot content hcontent
    rw [hdecode] at hcontent
    obtain rfl := Except.ok.inj hcontent
    exact hslot
  · exact fun hsent => hsent c.content hdecode

/-- What decodes is what was sent, if it is of the version in effect. -/
theorem decodes_iff_repeats {c : Commitment} {sent : RawCommitment} {api : Parameters} :
    (sent.id = c.id ∧ Codec.standard.decodeCommitment sent.data api = .ok c.content) ↔
      c.Repeats sent ∧ c.content.protocolVersion = api.version := by
  have hdecode : Codec.standard.decodeCommitment sent.data api = .ok c.content ↔
      Wire.commitment.encode c.content = sent.data ∧ c.content.protocolVersion = api.version :=
    Codec.decodeCommitmentOf_eq_ok_iff
  rw [hdecode]
  constructor
  · rintro ⟨hid, hdata, hversion⟩
    exact ⟨⟨hid.symm, hdata⟩, hversion⟩
  · rintro ⟨⟨hid, hdata⟩, hversion⟩
    exact ⟨hid.symm, hdata, hversion⟩

/-! ## Pictures -/

theorem CommitmentTrack.ofEvent?_eq_some_iff {track : CommitmentTrack} {event : StatusEvent}
    {c : Commitment} : track.ofEvent? event = some c ↔ event = track.event c := by
  cases track <;> cases event <;> simp [ofEvent?, CommitmentTrack.event]

namespace StatusCache

variable {codec : Codec} {raw : RawStatus} {raws : List RawStatus} {cache : StatusCache}
  {track : CommitmentTrack} {c : Commitment}

/-- A status offers what it announces under its own parameters, if the versions agree. -/
theorem offer?_standard_iff :
    track.offer? .standard raw = some c ↔ ∃ api sent, raw.accepted? .standard = some api ∧
      track.announced raw = some sent ∧ c.Repeats sent ∧
      c.content.protocolVersion = api.version := by
  simp only [offer?_eq_some_iff, decodes_iff_repeats]

theorem offer?_of_event_receive (h : track.event c ∈ (cache.receive codec raw).2) :
    track.offer? codec raw = some c := by
  rcases apply_cases codec raw cache with
    ⟨-, fault, happly⟩ | ⟨api, after, progress, -, happly, hupdates⟩
  · simp [receive, happly] at h
  · simp only [receive, happly] at h
    have hmoved := event_mem_events.mp h
    rw [hupdates.moved track] at hmoved
    exact (Option.filter_eq_some_iff.mp hmoved).1

/-- A picture without a commitment announces whatever a status offers. -/
theorem event_mem_receive_of_none (hnone : track.held cache = none)
    (h : track.offer? codec raw = some c) : track.event c ∈ (cache.receive codec raw).2 := by
  rcases apply_cases codec raw cache with
    ⟨hrefused, -⟩ | ⟨api, after, progress, -, happly, hupdates⟩
  · simp [CommitmentTrack.offer?, hrefused] at h
  · simp only [receive, happly]
    rw [event_mem_events, hupdates.moved, h, hnone]
    rfl

/-- A commitment is announced only if one of the statuses offered it. -/
theorem offer?_of_event_receiveAll (h : track.event c ∈ (receiveAll codec raws cache).2) :
    ∃ raw ∈ raws, track.offer? codec raw = some c := by
  induction raws generalizing cache with
  | nil => cases h
  | cons raw rest ih =>
    have hevent : track.event c ∈ (cache.receive codec raw).2 ++
        (receiveAll codec rest (cache.receive codec raw).1).2 := h
    rcases List.mem_append.mp hevent with hnow | hlater
    · exact ⟨raw, List.mem_cons_self, offer?_of_event_receive hnow⟩
    · obtain ⟨later, hmem, hoffer⟩ := ih hlater
      exact ⟨later, List.mem_cons_of_mem raw hmem, hoffer⟩

end StatusCache

/-! ## Connections -/

namespace Connection

/-- What a connection announces while statuses come in. -/
def announcements : List RawStatus → Connection → List StatusEvent
  | [], _ => []
  | raw :: rest, c => (c.receiveStatus raw).2 ++ announcements rest (c.receiveStatus raw).1

/-- A connection hands out what it holds after the statuses of a stream, what it announces
meanwhile, and its answers to queries afterwards. -/
inductive HandsOut (c : Connection) (raws : List RawStatus) (node : Node) : Commitment → Prop
  | held {track : CommitmentTrack} {commitment : Commitment}
      (h : track.held (c.receiveStatuses raws).cache = some commitment) :
      HandsOut c raws node commitment
  | announced {track : CommitmentTrack} {commitment : Commitment}
      (h : track.event commitment ∈ c.announcements raws) : HandsOut c raws node commitment
  | answered {query : CommitmentQuery} {commitment : Commitment}
      (h : (c.receiveStatuses raws).commitment query node = .ok commitment) :
      HandsOut c raws node commitment

/-- The commitments of the statuses, and those that the node stores. -/
def Sends (raws : List RawStatus) (node : Node) (sent : RawCommitment) : Prop :=
  (∃ raw ∈ raws, ∃ track : CommitmentTrack, track.announced raw = some sent) ∨
    sent ∈ node.commitments

variable {settings : ConnectionSettings} {node later : Node} {c : Connection}
  {raws : List RawStatus} {sent : RawCommitment} {commitment : Commitment} {query : CommitmentQuery}

theorem announcements_eq (raws : List RawStatus) (c : Connection) :
    c.announcements raws = (StatusCache.receiveAll c.codec raws c.cache).2 := by
  induction raws generalizing c with
  | nil => rfl
  | cons raw rest ih =>
    rw [announcements, ih, receiveStatus_eq]
    rfl

theorem apiForSlot_eq_ok_iff {cache : StatusCache} {slot : Slot} {api : Parameters} :
    cache.apiForSlot slot = .ok api ↔ cache.parameters? = some api := by
  rw [StatusCache.apiForSlot, StatusCache.parameters]
  cases cache.parameters? <;> simp

/-- A commitment that the node answers with is handed out as it was sent, if it decodes and is of
the version in effect. No slot plays a role. -/
theorem checkCommitment_standard_iff (hcodec : c.codec = .standard) :
    c.checkCommitment sent = .ok commitment ↔ ∃ api, c.cache.parameters? = some api ∧
      commitment.Repeats sent ∧ commitment.content.protocolVersion = api.version := by
  simp only [checkCommitment, bind_eq_ok_iff, apiForSlot_eq_ok_iff, decodeRawCommitment, hcodec,
    ← decodes_iff_repeats]
  refine exists_congr fun api => and_congr_right fun _ => ?_
  constructor
  · rintro ⟨content, hdecode, hresult⟩
    obtain rfl := Except.ok.inj hresult
    exact ⟨rfl, hdecode⟩
  · rintro ⟨hid, hdecode⟩
    exact ⟨commitment.content, hdecode, by rw [hid]; rfl⟩

/-- A query is answered with the first commitment that it selects, if this can be handed out. -/
theorem commitment_eq_ok_iff :
    c.commitment query node = .ok commitment ↔
      ∃ sent, node.commitments.find? (Node.selects query) = some sent ∧
        c.checkCommitment sent = .ok commitment := by
  rw [Connection.commitment, bind_eq_ok_iff, Node.readCommitment]
  cases node.commitments.find? (Node.selects query) <;>
    simp [Node.found, answered, Except.mapError]

theorem repeats_of_commitment (hcodec : c.codec = .standard)
    (h : c.commitment query node = .ok commitment) :
    ∃ sent ∈ node.commitments, Node.selects query sent = true ∧ commitment.Repeats sent := by
  obtain ⟨sent, hfind, hcheck⟩ := commitment_eq_ok_iff.mp h
  obtain ⟨api, -, hrepeats, -⟩ := (checkCommitment_standard_iff hcodec).mp hcheck
  exact ⟨sent, List.mem_of_find?_eq_some hfind, List.find?_some hfind, hrepeats⟩

/-- Everything that is handed out was sent. -/
theorem HandsOut.repeats {first : RawStatus} (hcodec : c.codec = .standard)
    (hcache : c.cache = (StatusCache.receiveAll .standard [first] .empty).1)
    (h : c.HandsOut raws later commitment) :
    ∃ sent, Sends (first :: raws) later sent ∧ commitment.Repeats sent := by
  have hoffered : ∀ track : CommitmentTrack, ∀ raw ∈ first :: raws,
      track.offer? .standard raw = some commitment →
        ∃ sent, Sends (first :: raws) later sent ∧ commitment.Repeats sent := by
    intro track raw hraw hoffer
    obtain ⟨api, sent, -, hannounced, hrepeats, -⟩ := StatusCache.offer?_standard_iff.mp hoffer
    exact ⟨sent, .inl ⟨raw, hraw, track, hannounced⟩, hrepeats⟩
  cases h with
  | @held track _ hheld =>
    rw [cache_receiveStatuses, hcodec, hcache] at hheld
    have hall : track.held (StatusCache.receiveAll .standard (first :: raws) .empty).1 =
        some commitment := hheld
    rcases StatusCache.held_receiveAll hall with ⟨raw, hraw, hoffer⟩ | hempty
    · exact hoffered track raw hraw hoffer
    · cases track <;> cases hempty
  | @announced track _ hevent =>
    rw [announcements_eq, hcodec] at hevent
    obtain ⟨raw, hraw, hoffer⟩ := StatusCache.offer?_of_event_receiveAll hevent
    exact hoffered track raw (List.mem_cons_of_mem first hraw) hoffer
  | answered hanswer =>
    have hcodec' := (codec_receiveStatuses raws c).trans hcodec
    obtain ⟨sent, hmem, -, hrepeats⟩ := repeats_of_commitment hcodec' hanswer
    exact ⟨sent, .inr hmem, hrepeats⟩

/-- The announced commitments of a track are of increasing slots, as their identifiers tell. -/
theorem pairwise_announcements {first : RawStatus} (hcodec : c.codec = .standard)
    (hcache : c.cache = (StatusCache.receiveAll .standard [first] .empty).1)
    (raws : List RawStatus) (track : CommitmentTrack) :
    ((c.announcements raws).filterMap track.ofEvent?).Pairwise
      fun commitment next => commitment.slot < next.slot := by
  have hempty : FirstHighest (track.offers .standard []) (track.held .empty) := by
    cases track <;> rfl
  obtain ⟨hfirst, -⟩ := StatusCache.follows_receiveAll [first] hempty
  rw [announcements_eq, hcodec, hcache, (StatusCache.follows_receiveAll raws hfirst).2]
  exact pairwise_recordsAfter ..

theorem slot_of_commitment {slot : Slot} (hcodec : c.codec = .standard)
    (h : c.commitment (.bySlot slot) node = .ok commitment) : commitment.slot = slot := by
  obtain ⟨sent, -, hselects, hrepeats⟩ := repeats_of_commitment hcodec h
  rw [Commitment.slot, hrepeats.id_eq]
  exact of_decide_eq_true hselects

theorem id_of_commitment {id : CommitmentId} (hcodec : c.codec = .standard)
    (h : c.commitment (.byId id) node = .ok commitment) : commitment.id = id := by
  obtain ⟨sent, -, hselects, hrepeats⟩ := repeats_of_commitment hcodec h
  rw [hrepeats.id_eq]
  exact of_decide_eq_true hselects

/-- Whatever a connection hands out repeats what was sent, and its slots agree exactly if they did
when it was sent. Whatever a node answers with, asked for anything, is handed out under the
identifier that it claims if it decodes and is of the version in effect, and what is inside has the
slot of this identifier exactly if that is so in the answer.

What follows on queries is about a node that looks them up among the commitments it stores: a query
for a slot is answered by the slot of the identifier. If the slots agree in all that is sent, they
do in all that is handed out: then a query for a slot yields what is of that slot inside, and what
is announced advances by the slots inside. -/
theorem commitments_repeated (h : connect .standard settings node = .ok c) (raws : List RawStatus)
    (later : Node) :
    ∃ first, node.readStatus = .ok first ∧
      (∀ commitment, c.HandsOut raws later commitment →
        ∃ sent, Sends (first :: raws) later sent ∧ commitment.Repeats sent ∧
          (commitment.Consistent ↔ sent.Consistent)) ∧
      (∀ sent commitment, (c.receiveStatuses raws).checkCommitment sent = .ok commitment ↔
        ∃ api, (c.receiveStatuses raws).cache.parameters? = some api ∧
          commitment.Repeats sent ∧ commitment.content.protocolVersion = api.version) ∧
      (∀ sent commitment, (c.receiveStatuses raws).checkCommitment sent = .ok commitment →
        commitment.id = sent.id ∧ (commitment.content.slot = sent.id.slot ↔ sent.Consistent)) ∧
      (∀ slot commitment,
        (c.receiveStatuses raws).commitment (.bySlot slot) later = .ok commitment →
          commitment.slot = slot) ∧
      (∀ id commitment, (c.receiveStatuses raws).commitment (.byId id) later = .ok commitment →
        commitment.id = id) ∧
      ((∀ sent, Sends (first :: raws) later sent → sent.Consistent) →
        (∀ commitment, c.HandsOut raws later commitment → commitment.Consistent) ∧
        (∀ slot commitment,
          (c.receiveStatuses raws).commitment (.bySlot slot) later = .ok commitment →
            commitment.content.slot = slot) ∧
        ∀ track : CommitmentTrack, ((c.announcements raws).filterMap track.ofEvent?).Pairwise
          fun commitment next => commitment.content.slot < next.content.slot) := by
  obtain ⟨first, hread, hcodec, hcache⟩ := cache_of_connect h
  have hcodec' := (codec_receiveStatuses raws c).trans hcodec
  refine ⟨first, hread, ?_, ?_, ?_, ?_, ?_, fun hsends => ?_⟩
  · intro commitment hout
    obtain ⟨sent, hsent, hrepeats⟩ := hout.repeats hcodec hcache
    exact ⟨sent, hsent, hrepeats, hrepeats.consistent_iff⟩
  · exact fun sent commitment => checkCommitment_standard_iff hcodec'
  · intro sent commitment hcheck
    obtain ⟨api, -, hrepeats, -⟩ := (checkCommitment_standard_iff hcodec').mp hcheck
    refine ⟨hrepeats.id_eq, ?_⟩
    rw [← hrepeats.consistent_iff, Commitment.Consistent, Commitment.slot, hrepeats.id_eq]
  · exact fun slot commitment hanswer => slot_of_commitment hcodec' hanswer
  · exact fun id commitment hanswer => id_of_commitment hcodec' hanswer
  · have hconsistent : ∀ commitment, c.HandsOut raws later commitment → commitment.Consistent := by
      intro commitment hout
      obtain ⟨sent, hsent, hrepeats⟩ := hout.repeats hcodec hcache
      exact hrepeats.consistent_iff.mpr (hsends sent hsent)
    refine ⟨hconsistent, fun slot commitment hanswer => ?_, fun track => ?_⟩
    · have hinside := hconsistent commitment (.answered hanswer)
      exact hinside.trans (slot_of_commitment hcodec' hanswer)
    · refine (pairwise_announcements hcodec hcache raws track).imp_of_mem ?_
      intro commitment next hmem hnext hslots
      have hevent : ∀ announced ∈ (c.announcements raws).filterMap track.ofEvent?,
          announced.Consistent := by
        intro announced hannounced
        obtain ⟨event, hmem, hof⟩ := List.mem_filterMap.mp hannounced
        obtain rfl := CommitmentTrack.ofEvent?_eq_some_iff.mp hof
        exact hconsistent announced (.announced hmem)
      rw [hevent commitment hmem, hevent next hnext]
      exact hslots

/-! ### A commitment under a foreign slot -/

/-- The commitment of one slot under an identifier of another. -/
def relabelled (slot inside : Slot) : RawCommitment where
  id := ⟨(Fixture.commitment inside).id.hash, slot⟩
  data := (Fixture.commitment inside).data

/-- A node that stores one commitment and has a status without any. -/
def nodeWith (sent : RawCommitment) : Node where
  status := some { parameters := Fixture.parameters }
  commitments := [sent]

def statusWith (sent : RawCommitment) : RawStatus where
  latest := some sent
  parameters := Fixture.parameters

theorem accepted?_of_parameters {raw : RawStatus} (h : raw.parameters = Fixture.parameters) :
    raw.accepted? .standard = some {} := by
  rw [accepted?_eq_some_iff, h]
  exact ⟨rfl, decodeParameters_ofVersion supportedVersion supportedVersion 0⟩

theorem connect_of_accepted {codec : Codec} {raw : RawStatus} {api : Parameters}
    (hstatus : node.status = some raw) (haccepted : raw.accepted? codec = some api)
    (hany : settings.requiredNetwork? = none) :
    connect codec settings node =
      .ok { settings, codec, cache := (StatusCache.empty.receive codec raw).1 } := by
  have hread : answered node.readStatus = .ok raw := by
    simp [answered, Node.readStatus, hstatus, Except.mapError]
  have hcheck : checkStatus codec settings raw = .ok (StatusCache.empty.receive codec raw).1 := by
    rcases StatusCache.apply_cases codec raw .empty with
      ⟨hrefused, -⟩ | ⟨api, after, progress, -, happly, -⟩
    · rw [hrefused] at haccepted
      cases haccepted
    · rw [checkStatus, decodeRawParameters_eq_ok_iff.mpr haccepted, hany, happly,
        StatusCache.receive, happly]
      rfl
  rw [connect, hread]
  change checkStatus codec settings raw >>= _ = _
  rw [hcheck]
  rfl

/-- A connection whose first status has no latest commitment takes over the one that is offered
next, and announces it. -/
theorem takes_offer {first raw : RawStatus} {api : Parameters}
    (hstatus : node.status = some first) (hfirst : first.accepted? .standard = some api)
    (hnone : first.latest = none) (hraw : raw.accepted? .standard = some api)
    (hoffer : CommitmentTrack.latest.offer? .standard raw = some commitment) :
    ∃ c, connect .standard {} node = .ok c ∧ (c.receiveStatuses [raw]).codec = .standard ∧
      (c.receiveStatuses [raw]).cache.parameters? = some api ∧
      (c.receiveStatuses [raw]).cache.latest = some commitment ∧
      .latestChanged commitment ∈ c.announcements [raw] := by
  have hheld : CommitmentTrack.latest.held
      (StatusCache.empty.receive .standard first).1 = none := by
    rw [StatusCache.held_receive_of_none rfl, CommitmentTrack.offer?, hfirst,
      CommitmentTrack.announced, hnone]
    rfl
  refine ⟨_, connect_of_accepted hstatus hfirst rfl, codec_receiveStatuses [raw] _, ?_, ?_, ?_⟩
  · rw [cache_receiveStatuses, StatusCache.parameters?_receiveAll]
    simp [hraw]
  · rw [cache_receiveStatuses]
    exact (StatusCache.held_receive_of_none hheld).trans hoffer
  · rw [announcements_eq]
    exact List.mem_append_left [] (StatusCache.event_mem_receive_of_none hheld hoffer)

/-- A commitment is held, announced and found under the slot that it is labelled with. -/
theorem handsOut_relabelled (slot inside : Slot) :
    ∃ c commitment, connect .standard {} (nodeWith (relabelled slot inside)) = .ok c ∧
      (c.receiveStatuses [statusWith (relabelled slot inside)]).cache.latest = some commitment ∧
      .latestChanged commitment ∈ c.announcements [statusWith (relabelled slot inside)] ∧
      (c.receiveStatuses [statusWith (relabelled slot inside)]).commitment (.bySlot slot)
        (nodeWith (relabelled slot inside)) = .ok commitment ∧
      commitment.slot = slot ∧ commitment.content.slot = inside := by
  have hrepeats : Commitment.Repeats ⟨(relabelled slot inside).id, Fixture.slotCommitment inside⟩
      (relabelled slot inside) := ⟨rfl, rfl⟩
  have hoffer : CommitmentTrack.latest.offer? .standard (statusWith (relabelled slot inside)) =
      some ⟨(relabelled slot inside).id, Fixture.slotCommitment inside⟩ :=
    StatusCache.offer?_standard_iff.mpr
      ⟨{}, relabelled slot inside, accepted?_of_parameters rfl, rfl, hrepeats, rfl⟩
  have hstatus : (nodeWith (relabelled slot inside)).status =
      some { parameters := Fixture.parameters } := rfl
  obtain ⟨c, hconnect, hcodec, hparameters, hheld, hannounced⟩ :=
    takes_offer hstatus (accepted?_of_parameters rfl) rfl (accepted?_of_parameters rfl) hoffer
  have hfind : (nodeWith (relabelled slot inside)).commitments.find?
      (Node.selects (.bySlot slot)) = some (relabelled slot inside) := by
    simp [nodeWith, Node.selects, relabelled]
  have hcheck := (checkCommitment_standard_iff hcodec).mpr ⟨{}, hparameters, hrepeats, rfl⟩
  exact ⟨c, _, hconnect, hheld, hannounced, commitment_eq_ok_iff.mpr ⟨_, hfind, hcheck⟩, rfl, rfl⟩

theorem consistent_relabelled (slot : Slot) : (relabelled slot slot).Consistent := by
  intro content hcontent
  obtain ⟨-, hencode⟩ := Wire.exact_commitment.decode_eq_ok_iff.mp hcontent
  obtain rfl := Wire.exact_commitment.encode_inj trivial trivial hencode
  rfl

/-- A commitment of slot 5 under its own slot is found under no other one. -/
theorem commitments_repeated_slotFive :
    let sent := relabelled 5 5
    ∃ c commitment, connect .standard {} (nodeWith sent) = .ok c ∧
      c.HandsOut [statusWith sent] (nodeWith sent) commitment ∧
      ∀ slot answer, (c.receiveStatuses [statusWith sent]).commitment (.bySlot slot)
        (nodeWith sent) = .ok answer → answer.content.slot = slot := by
  intro sent
  obtain ⟨c, commitment, hconnect, -, -, hanswer, -⟩ := handsOut_relabelled 5 5
  obtain ⟨first, hread, -, -, -, -, -, hagree⟩ :=
    commitments_repeated hconnect [statusWith sent] (nodeWith sent)
  have hsends : ∀ raw, Sends [first, statusWith sent] (nodeWith sent) raw → raw.Consistent := by
    rintro raw (⟨status, hstatus, track, hannounced⟩ | hstored)
    · obtain rfl := Except.ok.inj hread
      rcases List.mem_pair.mp hstatus with rfl | rfl
      · cases track <;> cases hannounced
      · cases track <;> cases hannounced
        exact consistent_relabelled 5
    · obtain rfl := List.mem_singleton.mp hstored
      exact consistent_relabelled 5
  obtain ⟨-, hslots, -⟩ := hagree hsends
  exact ⟨c, commitment, hconnect, .answered hanswer, hslots⟩

/-- A commitment of slot 5 under an identifier of slot 9 is held, announced and found as that of
slot 9. -/
theorem handsOut_relabelled_nine :
    ∃ c commitment, connect .standard {} (nodeWith (relabelled 9 5)) = .ok c ∧
      (c.receiveStatuses [statusWith (relabelled 9 5)]).cache.latest = some commitment ∧
      .latestChanged commitment ∈ c.announcements [statusWith (relabelled 9 5)] ∧
      (c.receiveStatuses [statusWith (relabelled 9 5)]).commitment (.bySlot 9)
        (nodeWith (relabelled 9 5)) = .ok commitment ∧
      commitment.slot = 9 ∧ commitment.content.slot = 5 ∧ ¬ commitment.Consistent := by
  obtain ⟨c, commitment, hconnect, hheld, hannounced, hanswer, hslot, hinside⟩ :=
    handsOut_relabelled 9 5
  refine ⟨c, commitment, hconnect, hheld, hannounced, hanswer, hslot, hinside, ?_⟩
  rw [Commitment.Consistent, hslot, hinside]
  decide

end Connection

end LedgerWatch
