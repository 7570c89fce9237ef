import LedgerWatch.Proofs.Ledger.Continued
import LedgerWatch.Proofs.Ledger.Output
import LedgerWatch.Proofs.Status.Listener
import LedgerWatch.Proofs.Status.Version

/-!
# Batches beside a stream of statuses

Statuses and ledger records come in on two streams, in any order. The statuses move a cache, and the
cache is what is known about the node when a record arrives. A batch takes the parameters and the
latest commitment from the cache when it opens, and statuses that come in later do not change them.

## Main definitions

- `Incoming`: a status or a record
- `Incoming.cacheAfter`, `Incoming.arrivals`: the cache, and the records with what is known
- `Incoming.OpenedAt`: what an update takes from the cache when its batch opens
- `Assembler.Rising`: the latest commitments still to come lie at or above a slot

## Main results

- `Incoming.arrivals_eq_append_cons`: what is known about the node when a record arrives
- `Incoming.pairwise_arrivals`: the latest commitment known never moves back
- `Assembler.Rising.process`, `Assembler.pairwise_feed`: nor does it in the updates delivered
- `Incoming.exists_openedAt_of_delivered`: when an update was opened, and what it carries
- `Incoming.opening_unavailable_iff`: until when no batch can be opened
- `Incoming.enriched`: all that holds of a mixture of the two streams
-/

namespace LedgerWatch

/-- What comes in next. -/
inductive Incoming where
  | status (raw : RawStatus)
  | record (record : LedgerRecord)

namespace Incoming

def status? : Incoming → Option RawStatus
  | status raw => some raw
  | record _ => none

/-- The cache that the statuses among some items leave behind. -/
def cacheAfter (codec : Codec) (items : List Incoming) (cache : StatusCache) : StatusCache :=
  (StatusCache.receiveAll codec (items.filterMap status?) cache).1

/-- The records among some items, each with what the cache tells when it arrives. -/
def arrivals (codec : Codec) : List Incoming → StatusCache → List Arrival
  | [], _ => []
  | .status raw :: rest, cache => arrivals codec rest (cache.receive codec raw).1
  | .record entry :: rest, cache => ⟨cache.context, entry⟩ :: arrivals codec rest cache

/-- After some items there was no open batch, and `marker` opened the batch of an update. The update
and its outputs carry what the cache told then. -/
structure OpenedAt (statusCodec ledgerCodec : Codec) (before : List Incoming) (marker : BatchMarker)
    (update : LedgerUpdate) : Prop where
  idle : (Assembler.feed ledgerCodec (arrivals statusCodec before .empty) .idle).1 = .idle
  opening : marker.kind = .opening
  commitmentId : update.commitmentId = marker.commitmentId
  api : (cacheAfter statusCodec before .empty).parameters? = some update.api
  latestCommitmentId :
    update.latestCommitmentId = (cacheAfter statusCodec before .empty).latestCommitmentId
  outputs : ∀ output ∈ update.consumed ++ update.created,
    output.metadata.latestCommitmentId = update.latestCommitmentId

variable {codec : Codec} {items before rest : List Incoming} {cache : StatusCache}

/-! ## What is known when a record arrives -/

theorem arrivals_append (codec : Codec) (before rest : List Incoming) (cache : StatusCache) :
    arrivals codec (before ++ rest) cache =
      arrivals codec before cache ++ arrivals codec rest (cacheAfter codec before cache) := by
  induction before generalizing cache with
  | nil => rfl
  | cons item before ih =>
    cases item with
    | status raw => exact ih _
    | record entry =>
      rw [List.cons_append, arrivals, ih]
      rfl

/-- A record arrives with what the statuses before it have left in the cache. -/
theorem arrivals_eq_append_cons {past later : List Arrival} {arrival : Arrival}
    (h : arrivals codec items cache = past ++ arrival :: later) :
    ∃ before rest, items = before ++ .record arrival.record :: rest ∧
      arrivals codec before cache = past ∧
      arrival.ctx = (cacheAfter codec before cache).context ∧
      arrivals codec rest (cacheAfter codec before cache) = later := by
  induction items generalizing past cache with
  | nil => simp [arrivals] at h
  | cons item items ih =>
    cases item with
    | status raw =>
      obtain ⟨before, rest, rfl, hpast, hctx, hlater⟩ := ih h
      exact ⟨.status raw :: before, rest, rfl, hpast, hctx, hlater⟩
    | record entry =>
      cases past with
      | nil =>
        obtain ⟨rfl, rfl⟩ := List.cons.inj h
        exact ⟨[], items, rfl, rfl, rfl, rfl⟩
      | cons first past =>
        obtain ⟨rfl, hrest⟩ := List.cons.inj h
        obtain ⟨before, rest, rfl, rfl, hctx, hlater⟩ := ih hrest
        exact ⟨.record entry :: before, rest, rfl, rfl, hctx, hlater⟩

theorem exists_mem_arrivals {entry : LedgerRecord} (h : .record entry ∈ items) (codec : Codec)
    (cache : StatusCache) : ∃ ctx, ⟨ctx, entry⟩ ∈ arrivals codec items cache := by
  obtain ⟨before, rest, rfl⟩ := List.append_of_mem h
  rw [arrivals_append]
  exact ⟨_, List.mem_append_right _ List.mem_cons_self⟩

end Incoming

/-! ## The latest commitment never moves back -/

/-- The slot of the latest commitment known at an arrival. -/
def Arrival.latestSlot (arrival : Arrival) : Slot := arrival.ctx.latestCommitmentId.slot

namespace StatusCache

variable {codec : Codec} {raw : RawStatus}

theorem slot_latestCommitmentId_receive (codec : Codec) (raw : RawStatus) (cache : StatusCache) :
    cache.latestCommitmentId.slot ≤ (cache.receive codec raw).1.latestCommitmentId.slot := by
  rcases apply_cases codec raw cache with ⟨-, fault, happly⟩ | ⟨api, after, progress, -, happly, h⟩
  · rw [receive, happly]
    exact UInt32.le_refl _
  · rw [receive, happly]
    rcases h.held_cases .latest with ⟨-, hheld⟩ | ⟨c, -, hheld, hahead⟩
    · have hlatest : after.latest = cache.latest := hheld
      simp [latestCommitmentId, hlatest]
    · have hlatest : after.latest = some c := hheld
      cases hknown : cache.latest with
      | none =>
        simp only [latestCommitmentId, hknown]
        exact UInt32.zero_le
      | some known =>
        simp only [latestCommitmentId, hknown, hlatest]
        have hslot : known.slot < c.slot := by
          simpa [CommitmentTrack.held, hknown, Commitment.aheadOf] using hahead
        exact UInt32.le_of_lt hslot

/-- Parameters are told for every slot, or for none. -/
theorem apiForSlot_eq_ok_iff {cache : StatusCache} {api : Parameters} (slot : Slot) :
    cache.apiForSlot slot = .ok api ↔ cache.parameters? = some api := by
  unfold apiForSlot parameters
  cases cache.parameters? <;> simp

theorem apiForSlot_eq_unavailable_iff {cache : StatusCache} (slot : Slot) :
    cache.apiForSlot slot = .error .statusUnavailable ↔ cache.parameters? = none := by
  unfold apiForSlot parameters
  cases cache.parameters? <;> simp

/-- Parameters are known exactly if a status was accepted. -/
theorem parameters?_receiveAll_empty (codec : Codec) (raws : List RawStatus) :
    (receiveAll codec raws .empty).1.parameters? = none ↔
      ∀ raw ∈ raws, raw.isAccepted codec = false := by
  rw [parameters?_receiveAll]
  simp [RawStatus.isAccepted, empty, parameters?]

end StatusCache

namespace Incoming

variable {codec : Codec}

theorem pairwise_arrivals (codec : Codec) (items : List Incoming) (cache : StatusCache) :
    (∀ arrival ∈ arrivals codec items cache,
      cache.latestCommitmentId.slot ≤ arrival.latestSlot) ∧
    (arrivals codec items cache).Pairwise fun arrival later =>
      arrival.latestSlot ≤ later.latestSlot := by
  induction items generalizing cache with
  | nil => exact ⟨by simp [arrivals], List.Pairwise.nil⟩
  | cons item items ih =>
    cases item with
    | status raw =>
      obtain ⟨hlater, hpairwise⟩ := ih (cache.receive codec raw).1
      refine ⟨fun arrival hmem => ?_, hpairwise⟩
      exact UInt32.le_trans (cache.slot_latestCommitmentId_receive codec raw) (hlater arrival hmem)
    | record entry =>
      obtain ⟨hlater, hpairwise⟩ := ih cache
      refine ⟨fun arrival hmem => ?_, hpairwise.cons hlater⟩
      rcases List.mem_cons.mp hmem with rfl | hmem
      · exact UInt32.le_refl _
      · exact hlater arrival hmem

end Incoming

namespace Assembler

variable {arrivals : List Arrival} {arrival : Arrival} {low : Slot} {a : Assembler}

/-- The latest commitments still to come lie at or above a slot: those known at the arrivals, and
that of an open batch, which lies below the former. -/
structure Rising (low : Slot) (arrivals : List Arrival) (a : Assembler) : Prop where
  known : ∀ arrival ∈ arrivals, low ≤ arrival.latestSlot
  carried : ∀ batch, a.batch = some batch → low ≤ batch.latestCommitmentId.slot ∧
    ∀ arrival ∈ arrivals, batch.latestCommitmentId.slot ≤ arrival.latestSlot

theorem rising_idle (h : ∀ arrival ∈ arrivals, low ≤ arrival.latestSlot) :
    Rising low arrivals idle :=
  ⟨h, by simp [idle]⟩

theorem Rising.tail (h : Rising low (arrival :: arrivals) a) : Rising low arrivals a where
  known later hmem := h.known later (List.mem_cons_of_mem _ hmem)
  carried batch hbatch :=
    (h.carried batch hbatch).imp_right fun hlater later hmem =>
      hlater later (List.mem_cons_of_mem _ hmem)

/-- One record. An update that is delivered raises the bound to what it carries. -/
theorem Rising.process (h : Rising low (arrival :: arrivals) a)
    (hhead : ∀ later ∈ arrivals, arrival.latestSlot ≤ later.latestSlot) (codec : Codec) :
    ∃ low', low ≤ low' ∧ Rising low' arrivals (a.process codec arrival.ctx arrival.record).1 ∧
      ∀ update, delivered? (a.process codec arrival.ctx arrival.record).2 = some update →
        update.latestCommitmentId.slot = low' := by
  have heffect := process_effect codec arrival.ctx arrival.record a
  generalize a.process codec arrival.ctx arrival.record = next at heffect
  obtain ⟨a', result⟩ := next
  obtain ⟨now, entry⟩ := arrival
  have hstay := h.tail
  -- only the closing marker delivers, and nothing is open behind it, so the bound may move there
  cases heffect with
  | opens =>
    refine ⟨low, UInt32.le_refl _, ⟨hstay.known, ?_⟩, by simp [delivered?]⟩
    intro batch hbatch
    obtain rfl := Option.some.inj hbatch
    exact ⟨h.known _ List.mem_cons_self, hhead⟩
  | @consumes batch | @creates batch =>
    refine ⟨low, UInt32.le_refl _, ⟨hstay.known, ?_⟩, by simp [delivered?]⟩
    intro batch' hbatch
    obtain rfl := Option.some.inj hbatch
    exact hstay.carried batch rfl
  | @delivers _ batch =>
    obtain ⟨hbound, hlater⟩ := hstay.carried batch rfl
    exact ⟨_, hbound, rising_idle hlater, by simp [delivered?]⟩
  | discards => exact ⟨low, UInt32.le_refl _, rising_idle hstay.known, by simp [delivered?]⟩
  | refuses => exact ⟨low, UInt32.le_refl _, hstay, by simp [delivered?]⟩

/-- If the latest commitment known never moves back, the updates carry it in that order. -/
theorem pairwise_feed (codec : Codec) (h : Rising low arrivals a)
    (harrivals : arrivals.Pairwise fun arrival later => arrival.latestSlot ≤ later.latestSlot) :
    (∀ update ∈ (feed codec arrivals a).2, low ≤ update.latestCommitmentId.slot) ∧
    (feed codec arrivals a).2.Pairwise fun update later =>
      update.latestCommitmentId.slot ≤ later.latestCommitmentId.slot := by
  induction arrivals generalizing a low with
  | nil => exact ⟨by simp [feed], List.Pairwise.nil⟩
  | cons arrival arrivals ih =>
    obtain ⟨hhead, htail⟩ := List.pairwise_cons.mp harrivals
    obtain ⟨low', hle, hrising, hraised⟩ := h.process hhead codec
    obtain ⟨hall, hpairwise⟩ := ih hrising htail
    have hlow : ∀ update ∈ (feed codec arrivals (a.process codec arrival.ctx arrival.record).1).2,
        low ≤ update.latestCommitmentId.slot := fun update hmem =>
      UInt32.le_trans hle (hall update hmem)
    simp only [feed]
    cases hdelivered : delivered? (a.process codec arrival.ctx arrival.record).2 with
    | none => exact ⟨hlow, hpairwise⟩
    | some update =>
      obtain rfl := hraised update hdelivered
      exact ⟨List.forall_mem_cons.mpr ⟨hle, hlow⟩, hpairwise.cons hall⟩

end Assembler

/-! ## Mixed streams -/

/-- An opening marker fails for want of parameters only if no batch is open. -/
theorem Assembler.process_opening_eq_unavailable_iff {codec : Codec} {ctx : BatchContext}
    {marker : BatchMarker} {a : Assembler} (h : marker.kind = .opening) :
    (a.process codec ctx (.marker marker)).2 = .error .statusUnavailable ↔
      a.batch = none ∧ ctx.apiForSlot marker.commitmentId.slot = .error .statusUnavailable := by
  simp only [process, h, openBatch]
  cases a.batch with
  | some => simp
  | none => cases ctx.apiForSlot marker.commitmentId.slot <;> simp

/-- A verified output carries the latest commitment that it was verified with. -/
theorem latestCommitmentId_of_toOption {codec : Codec} {api : Parameters} {raw : RawOutput}
    {spend : Option Spend} {latest : CommitmentId} {output : VerifiedOutput}
    (h : (verifyOutput codec api raw spend latest).toOption = some output) :
    output.metadata.latestCommitmentId = latest := by
  have hok : verifyOutput codec api raw spend latest = .ok output := by
    cases hverify : verifyOutput codec api raw spend latest with
    | error => simp [hverify, Except.toOption] at h
    | ok v => simpa [hverify, Except.toOption] using h
  rw [(verifyOutput_eq_ok_iff.mp hok).2.1.metadata]

theorem Assembler.Gathers.outputs {codec : Codec} {past : List Arrival} {ctx : BatchContext}
    {marker : BatchMarker} {body : List Arrival} {batch : LedgerUpdate}
    (h : Gathers codec past ctx marker body batch) :
    ∀ output ∈ batch.consumed ++ batch.created,
      output.metadata.latestCommitmentId = batch.latestCommitmentId := by
  intro output hmem
  rw [h.consumed, h.created, List.mem_append, List.mem_filterMap, List.mem_filterMap] at hmem
  rcases hmem with ⟨spent, -, hspent⟩ | ⟨raw, -, hraw⟩
  · exact latestCommitmentId_of_toOption hspent
  · exact latestCommitmentId_of_toOption hraw

namespace Incoming

open Assembler

variable {statusCodec ledgerCodec : Codec} {items : List Incoming}

/-- An open batch took what it carries from the cache when it was opened. -/
theorem openedAt_of_gathers {ctx : BatchContext} {marker : BatchMarker} {body : List Arrival}
    {batch : LedgerUpdate}
    (h : Gathers ledgerCodec (arrivals statusCodec items .empty) ctx marker body batch) :
    ∃ before since, items = before ++ .record (.marker marker) :: since ∧
      OpenedAt statusCodec ledgerCodec before marker batch ∧
      ∀ closing, .record (.marker closing) ∈ since → closing.kind ≠ .closing := by
  obtain ⟨past, hsplit, hidle⟩ := h.split
  obtain ⟨before, since, rfl, rfl, hctx, hbody⟩ := arrivals_eq_append_cons hsplit
  have hctx : ctx = (cacheAfter statusCodec before .empty).context := hctx
  refine ⟨before, since, rfl, ⟨hidle, h.opening, h.commitmentId, ?_, ?_, h.outputs⟩, ?_⟩
  · have hapi := h.api
    rw [hctx] at hapi
    exact (StatusCache.apiForSlot_eq_ok_iff marker.commitmentId.slot).mp hapi
  · rw [h.latestCommitmentId, hctx]
    rfl
  · intro closing hmem hkind
    obtain ⟨now, harrival⟩ :=
      exists_mem_arrivals hmem statusCodec (cacheAfter statusCodec before .empty)
    rw [hbody] at harrival
    have hnone := h.unclosed _ harrival
    simp [Arrival.closing?, Arrival.marker?, hkind] at hnone

/-- No batch is open before a status was accepted. -/
theorem exists_accepted_of_open {batch : LedgerUpdate}
    (h : (feed ledgerCodec (arrivals statusCodec items .empty) idle).1.batch = some batch) :
    ∃ raw ∈ items.filterMap status?, raw.isAccepted statusCodec = true := by
  obtain ⟨ctx, marker, body, hgathers⟩ := gathers_feed ledgerCodec _ h
  obtain ⟨before, since, rfl, hopened, -⟩ := openedAt_of_gathers hgathers
  -- the parameters that the batch was opened with came from a status
  have hknown : (cacheAfter statusCodec before .empty).parameters? ≠ none := by
    rw [hopened.api]
    exact Option.some_ne_none _
  rw [cacheAfter, ne_eq, StatusCache.parameters?_receiveAll_empty, not_forall] at hknown
  obtain ⟨raw, hraw⟩ := hknown
  obtain ⟨hmem, haccepted⟩ := Classical.not_imp.mp hraw
  refine ⟨raw, ?_, eq_true_of_ne_false haccepted⟩
  rw [List.filterMap_append]
  exact List.mem_append_left _ hmem

/-- An update that is delivered carries what the cache told when its batch opened. -/
theorem exists_openedAt_of_delivered {update : LedgerUpdate}
    (h : update ∈ (feed ledgerCodec (arrivals statusCodec items .empty) idle).2) :
    ∃ before opening body closing rest,
      items = before ++ .record (.marker opening) :: (body ++ .record (.marker closing) :: rest) ∧
      OpenedAt statusCodec ledgerCodec before opening update ∧
      closing.kind = .closing ∧ closes closing update ∧
      ∀ marker, .record (.marker marker) ∈ body → marker.kind ≠ .closing := by
  obtain ⟨past, now, closing, rest, hsplit, hclosing, hcloses, hopen⟩ :=
    exists_of_mem_feed ledgerCodec _ idle h
  obtain ⟨upto, later, rfl, rfl, -, -⟩ := arrivals_eq_append_cons hsplit
  obtain ⟨ctx, opening, body, hgathers⟩ := gathers_feed ledgerCodec _ hopen
  obtain ⟨before, since, rfl, hopened, hunclosed⟩ := openedAt_of_gathers hgathers
  exact ⟨before, opening, since, closing, later, by simp, hopened, hclosing, hcloses, hunclosed⟩

theorem pairwise_delivered (statusCodec ledgerCodec : Codec) (items : List Incoming) :
    (feed ledgerCodec (arrivals statusCodec items .empty) idle).2.Pairwise fun update later =>
      update.latestCommitmentId.slot ≤ later.latestCommitmentId.slot := by
  obtain ⟨-, hpairwise⟩ := pairwise_arrivals statusCodec items .empty
  have hrising : Rising 0 (arrivals statusCodec items .empty) idle :=
    rising_idle fun _ _ => UInt32.zero_le
  exact (pairwise_feed ledgerCodec hrising hpairwise).2

/-- A batch cannot be opened for want of parameters exactly until a status was accepted. -/
theorem opening_unavailable_iff (statusCodec ledgerCodec : Codec) (items : List Incoming)
    {marker : BatchMarker} (hopening : marker.kind = .opening) :
    (((feed ledgerCodec (arrivals statusCodec items .empty) idle).1.process ledgerCodec
        (cacheAfter statusCodec items .empty).context (.marker marker)).2 =
          .error .statusUnavailable) ↔
      ∀ raw ∈ items.filterMap status?, raw.isAccepted statusCodec = false := by
  rw [process_opening_eq_unavailable_iff hopening]
  constructor
  · rintro ⟨-, hunknown⟩
    have hnone := (StatusCache.apiForSlot_eq_unavailable_iff marker.commitmentId.slot).mp hunknown
    exact (StatusCache.parameters?_receiveAll_empty statusCodec _).mp hnone
  · intro hrefused
    refine ⟨?_, (StatusCache.apiForSlot_eq_unavailable_iff marker.commitmentId.slot).mpr
      ((StatusCache.parameters?_receiveAll_empty statusCodec _).mpr hrefused)⟩
    cases hbatch : (feed ledgerCodec (arrivals statusCodec items .empty) idle).1.batch with
    | none => rfl
    | some batch =>
      obtain ⟨raw, hmem, haccepted⟩ := exists_accepted_of_open hbatch
      rw [hrefused raw hmem] at haccepted
      cases haccepted

/-- In every mixture of statuses and records, each update that is delivered carries what the cache
told when its batch opened, and the latest commitments that they carry never move back. A batch can
be opened once a status was accepted. -/
theorem enriched (statusCodec ledgerCodec : Codec) (items : List Incoming) :
    let cache := cacheAfter statusCodec items .empty
    let (assembler, delivered) := feed ledgerCodec (arrivals statusCodec items .empty) idle
    (∀ update ∈ delivered, ∃ before opening body closing rest,
      items = before ++ .record (.marker opening) :: (body ++ .record (.marker closing) :: rest) ∧
      OpenedAt statusCodec ledgerCodec before opening update ∧
      closing.kind = .closing ∧ closes closing update ∧
      ∀ marker, .record (.marker marker) ∈ body → marker.kind ≠ .closing) ∧
    (delivered.Pairwise fun update later =>
      update.latestCommitmentId.slot ≤ later.latestCommitmentId.slot) ∧
    ∀ marker : BatchMarker, marker.kind = .opening →
      ((assembler.process ledgerCodec cache.context (.marker marker)).2 =
          .error .statusUnavailable ↔
        ∀ raw ∈ items.filterMap status?, raw.isAccepted statusCodec = false) := by
  refine ⟨fun update hdelivered => ?_, ?_, fun marker hopening => ?_⟩
  · exact exists_openedAt_of_delivered hdelivered
  · exact pairwise_delivered statusCodec ledgerCodec items
  · exact opening_unavailable_iff statusCodec ledgerCodec items hopening

/-- A batch is opened after a status in slot 4, and another one in slot 9 arrives before it ends. -/
def lateStatus : List Incoming :=
  [.status (.atSlot 4 supportedVersion [] []),
    .record (.marker { kind := .opening, commitmentId := ⟨Hash.zero, 5⟩ }),
    .status (.atSlot 9 supportedVersion [] []),
    .record (.marker { kind := .closing, commitmentId := ⟨Hash.zero, 5⟩ })]

/-- The update carries the latest commitment of slot 4, although that of slot 9 is known. -/
theorem enriched_lateStatus :
    let update : LedgerUpdate :=
      { api := {}, commitmentId := ⟨Hash.zero, 5⟩, latestCommitmentId := ⟨Hash.zero, 4⟩ }
    (feed .emptyOnly (arrivals .emptyOnly lateStatus .empty) idle).2 = [update] ∧
    (cacheAfter .emptyOnly lateStatus .empty).latestCommitmentId = ⟨Hash.zero, 9⟩ ∧
    ∃ before opening body closing rest,
      lateStatus =
        before ++ .record (.marker opening) :: (body ++ .record (.marker closing) :: rest) ∧
      OpenedAt .emptyOnly .emptyOnly before opening update := by
  intro update
  obtain ⟨hopened, -, -⟩ := enriched .emptyOnly .emptyOnly lateStatus
  have hdelivered : (feed .emptyOnly (arrivals .emptyOnly lateStatus .empty) idle).2 = [update] :=
    rfl
  obtain ⟨before, opening, body, closing, rest, hsplit, hat, -⟩ :=
    hopened update (hdelivered ▸ List.mem_singleton_self update)
  exact ⟨hdelivered, rfl, before, opening, body, closing, rest, hsplit, hat⟩

end Incoming

end LedgerWatch
