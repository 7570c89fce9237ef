import LedgerWatch.Proofs.Ledger.Verified

/-!
# Faults leave no trace

A stream may be fed on after any fault. What fails changes nothing, except that a closing marker
that disagrees with the open batch takes it away. So an update is made of the records that did not
fail since the last opening marker that did not, and the rest of the stream, discarded batches
included, may as well never have come.

## Main definitions

- `Assembler.resultAfter`, `Assembler.accepted`: how the records of a stream fare
- `Assembler.Discards`: a closing marker takes the batch away
- `Assembler.Accumulates`: the batch that a marker opened is made of what did not fail since

## Main results

- `Assembler.refuses_or_discards`: a fault leaves the assembler as it was, or idle
- `Assembler.discards_of_mismatch`: the fault of a discarded batch is that of no other record
- `Assembler.process_impaired_mismatch_iff`: when a batch is discarded, under the codecs at hand
- `Assembler.exists_open`: what a batch collects once it was opened
- `Assembler.feed_omit`: what has no effect where it comes may be left out
- `Assembler.mem_feed_iff`: which updates are delivered
- `Assembler.faults_leave_no_trace`: whole streams
- `Assembler.batch_outlives_mismatch_and_refusal`: a batch outlives the fault of a discarded one
  that the codec gives, and collects what comes behind a refused opening marker
-/

namespace LedgerWatch

theorem Codec.impaired_not_raises (defects : Codec.Defects) :
    ¬ (Codec.impaired defects).Raises .batchMismatch := by
  have hdecode : ∀ {α : Type} {kind : Wire.ObjectKind} {format : Wire.Format α} {data : Bytes},
      Codec.decodeAs kind format data ≠ .error .batchMismatch := by
    intro α kind format data h
    cases hformat : format.decode data <;> simp [Codec.decodeAs, hformat, Except.mapError] at h
  rintro (h | h | h | h)
  · exact hdecode h
  · simp only [Codec.impaired] at h
    split_ifs at h
    cases h
  · exact hdecode h
  · cases h

theorem Codec.featuresOnly_not_raises : ¬ Codec.featuresOnly.Raises .batchMismatch := by
  rintro (h | h | h | h)
  · simp only [Codec.featuresOnly] at h
    split_ifs at h
    cases h
  · cases h
  · cases h
  · cases h

theorem StatusCache.apiForSlot_ne_mismatch (cache : StatusCache) (slot : Slot) :
    cache.apiForSlot slot ≠ .error .batchMismatch := by
  cases h : cache.parameters? <;> simp [StatusCache.apiForSlot, StatusCache.parameters, h]

namespace Assembler

variable {codec : Codec} {ctx : BatchContext} {marker : BatchMarker} {record : LedgerRecord}
  {a : Assembler} {batch : LedgerUpdate} {fault : Fault} {past before body kept : List Arrival}

/-- The record is a closing marker that disagrees with the open batch. -/
def Discards (a : Assembler) (record : LedgerRecord) : Prop :=
  ∃ marker batch, record = .marker marker ∧ marker.kind = .closing ∧
    a.batch = some batch ∧ closes marker batch = false

/-- How an arrival fares after all those before it. -/
def resultAfter (codec : Codec) (past : List Arrival) (arrival : Arrival) :
    Except Fault (Option LedgerUpdate) :=
  ((feed codec past idle).1.process codec arrival.ctx arrival.record).2

/-- The arrivals of a stream that do not fail. -/
def accepted (codec : Codec) : List Arrival → Assembler → List Arrival
  | [], _ => []
  | arrival :: rest, a =>
    let next := a.process codec arrival.ctx arrival.record
    match next.2 with
    | .error _ => accepted codec rest next.1
    | .ok _ => arrival :: accepted codec rest next.1

/-- After the arrivals `before`, `marker` opens a batch under `ctx`. No record of `body` closes it,
and no marker among them is accepted. The batch is made of those that are. -/
structure Accumulates (codec : Codec) (before : List Arrival) (ctx : BatchContext)
    (marker : BatchMarker) (body : List Arrival) (batch : LedgerUpdate) : Prop where
  opening : marker.kind = .opening
  opened : resultAfter codec before ⟨ctx, .marker marker⟩ = .ok none
  unclosed : ∀ a ∈ body, a.closing? = none
  unmarked : ∀ a ∈ accepted codec body (feed codec (before ++ [⟨ctx, .marker marker⟩]) idle).1,
    a.marker? = none
  collected : Collected codec ctx marker
    (accepted codec body (feed codec (before ++ [⟨ctx, .marker marker⟩]) idle).1) batch

/-! ## One record -/

/-- A fault leaves the assembler as it was, unless it is that of a discarded batch. -/
theorem refuses_or_discards (h : (a.process codec ctx record).2 = .error fault) :
    Refuses codec ctx a record fault ∧ (a.process codec ctx record).1 = a ∨
      Discards a record ∧ (a.process codec ctx record).1 = idle ∧ fault = .batchMismatch := by
  have heffect := process_effect codec ctx record a
  rw [h] at heffect
  generalize hafter : (a.process codec ctx record).1 = after at heffect ⊢
  cases heffect with
  | @discards marker batch closing disagrees =>
    refine .inr ⟨⟨marker, batch, rfl, closing, rfl, ?_⟩, rfl, rfl⟩
    rwa [Bool.not_eq_true] at disagrees
  | refuses refused => exact .inl ⟨refused, rfl⟩

theorem Discards.isOpen (h : Discards a record) : ∃ batch, a.batch = some batch := by
  obtain ⟨-, batch, -, -, hbatch, -⟩ := h
  exact ⟨batch, hbatch⟩

theorem not_discards_idle (record : LedgerRecord) : ¬ Discards idle record := by
  intro h
  obtain ⟨batch, hbatch⟩ := h.isOpen
  cases hbatch

theorem process_of_discards (h : Discards a record) :
    a.process codec ctx record = (idle, .error .batchMismatch) := by
  obtain ⟨marker, batch, rfl, hclosing, hbatch, hdisagrees⟩ := h
  simp [process, hclosing, closeBatch, hbatch, hdisagrees]

/-- Of all refusals only one by the codec or by the context could look like a discarded batch. -/
theorem Refuses.raised (h : Refuses codec ctx a record .batchMismatch) :
    codec.Raises .batchMismatch ∨ ∃ slot, ctx.apiForSlot slot = .error .batchMismatch := by
  have hverify : ∀ {api raw spend latest},
      verifyOutput codec api raw spend latest = .error .batchMismatch →
      codec.Raises .batchMismatch := by
    intro api raw spend latest herror
    rcases verifyOutput_eq_error herror with hraises | hbytes | ⟨derived, hid⟩
    · exact hraises
    · cases hbytes
    · cases hid
  cases h with
  | noParameters opening unknown => exact .inr ⟨_, unknown⟩
  | badSpent bad => exact .inl (hverify bad)
  | badCreated bad => exact .inl (hverify bad)

/-- Only a discarded batch has its fault, under a codec and a context that do not give it. -/
theorem discards_of_mismatch (h : (a.process codec ctx record).2 = .error .batchMismatch)
    (hcodec : ¬ codec.Raises .batchMismatch)
    (hcontext : ∀ slot, ctx.apiForSlot slot ≠ .error .batchMismatch) : Discards a record := by
  rcases refuses_or_discards h with ⟨hrefused, -⟩ | ⟨hdiscards, -⟩
  · rcases hrefused.raised with hraises | ⟨slot, hslot⟩
    · exact absurd hraises hcodec
    · exact absurd hslot (hcontext slot)
  · exact hdiscards

/-- With the encoders of this library and with what is known of a node, the fault of a discarded
batch is never told without one. -/
theorem process_impaired_mismatch_iff (defects : Codec.Defects) (cache : StatusCache) :
    (a.process (.impaired defects) cache.context record).2 = .error .batchMismatch ↔
      Discards a record := by
  constructor
  · intro h
    exact discards_of_mismatch h (Codec.impaired_not_raises defects) cache.apiForSlot_ne_mismatch
  · intro h
    rw [process_of_discards h]

/-! ## Whole streams -/

/-- As long as no batch is open, only an opening marker has an effect. -/
theorem feed_idle (hbody : ∀ a ∈ body, ∀ marker ∈ a.marker?, marker.kind = .closing) :
    feed codec body idle = (idle, []) := by
  induction body with
  | nil => rfl
  | cons arrival body ih =>
    have hprocess :
        idle.process codec arrival.ctx arrival.record = (idle, .error .noOpenBatch) := by
      obtain ⟨now, record⟩ := arrival
      cases record with
      | marker marker =>
        have hclosing := hbody _ List.mem_cons_self marker rfl
        simp [process, hclosing, closeBatch, idle]
      | consumed spent => rfl
      | created raw => rfl
    have hrest : ∀ a ∈ body, ∀ marker ∈ a.marker?, marker.kind = .closing :=
      fun a ha => hbody a (List.mem_cons_of_mem arrival ha)
    simp only [feed, hprocess, ih hrest, delivered?, Option.toList_none, List.nil_append]

/-- What leaves the assembler as it is and delivers nothing may be left out. -/
theorem feed_omit {middle : List Arrival}
    (h : feed codec middle (feed codec past idle).1 = ((feed codec past idle).1, []))
    (rest : List Arrival) :
    feed codec (past ++ middle ++ rest) idle = feed codec (past ++ rest) idle := by
  rw [List.append_assoc, feed_append codec past, feed_append codec middle, h, List.nil_append,
    ← feed_append]

theorem feed_omit_failed {arrival : Arrival} (h : resultAfter codec past arrival = .error fault)
    (hkeeps : ¬ Discards (feed codec past idle).1 arrival.record) (rest : List Arrival) :
    feed codec (past ++ arrival :: rest) idle = feed codec (past ++ rest) idle := by
  have hsame : feed codec [arrival] (feed codec past idle).1 = ((feed codec past idle).1, []) := by
    unfold resultAfter at h
    rcases refuses_or_discards h with ⟨-, hafter⟩ | ⟨hdiscards, -⟩
    · simp only [feed, h, hafter, delivered?, Option.toList_none, List.append_nil]
    · exact absurd hdiscards hkeeps
  rw [← feed_omit hsame rest, List.append_assoc, List.singleton_append]

/-- Until its closing marker a batch collects the records that do not fail. -/
theorem feed_of_collected (h : Collected codec ctx marker kept batch)
    (hbody : ∀ a ∈ body, a.closing? = none) :
    (∀ a ∈ accepted codec body ⟨some batch⟩, a.marker? = none) ∧
      ∃ batch', feed codec body ⟨some batch⟩ = (⟨some batch'⟩, []) ∧
        Collected codec ctx marker (kept ++ accepted codec body ⟨some batch⟩) batch' := by
  induction body generalizing kept batch with
  | nil => exact ⟨by simp [accepted], batch, rfl, by rwa [accepted, List.append_nil]⟩
  | cons arrival body ih =>
    have hrest : ∀ a ∈ body, a.closing? = none :=
      fun a ha => hbody a (List.mem_cons_of_mem arrival ha)
    have hhere := hbody arrival List.mem_cons_self
    obtain ⟨now, record⟩ := arrival
    have heffect := process_effect codec now record ⟨some batch⟩
    rcases hnext : process codec now record ⟨some batch⟩ with ⟨after, result⟩
    rw [hnext] at heffect
    simp only [feed, accepted, hnext]
    -- The batch changes by what is collected, so that the rest starts from another one.
    cases heffect with
    | consumes verified =>
      obtain ⟨hunmarked, batch', hfeed, hcollected⟩ := ih (h.concat_consumed now verified) hrest
      exact ⟨List.forall_mem_cons.mpr ⟨rfl, hunmarked⟩, batch', by rw [hfeed]; rfl,
        by simpa using hcollected⟩
    | creates verified =>
      obtain ⟨hunmarked, batch', hfeed, hcollected⟩ := ih (h.concat_created now verified) hrest
      exact ⟨List.forall_mem_cons.mpr ⟨rfl, hunmarked⟩, batch', by rw [hfeed]; rfl,
        by simpa using hcollected⟩
    | delivers closing => simp [Arrival.closing?, Arrival.marker?, closing] at hhere
    | discards closing => simp [Arrival.closing?, Arrival.marker?, closing] at hhere
    | refuses refused =>
      obtain ⟨hunmarked, batch', hfeed, hcollected⟩ := ih h hrest
      exact ⟨hunmarked, batch', by rw [hfeed]; rfl, hcollected⟩

/-- Only an opening marker that comes while no batch is open has a success that delivers nothing. -/
theorem feed_opening
    (hopened : resultAfter codec before ⟨ctx, .marker marker⟩ = .ok none) :
    marker.kind = .opening ∧ (feed codec before idle).1 = idle ∧
      ∃ batch, Collected codec ctx marker [] batch ∧
        feed codec (before ++ [⟨ctx, .marker marker⟩]) idle =
          (⟨some batch⟩, (feed codec before idle).2) := by
  unfold resultAfter at hopened
  rw [feed_append]
  have heffect := process_effect codec ctx (.marker marker) (feed codec before idle).1
  rcases hnext : process codec ctx (.marker marker) (feed codec before idle).1 with ⟨after, result⟩
  rw [hnext] at heffect hopened
  simp only [feed, hnext]
  generalize (feed codec before idle).1 = a at heffect
  obtain rfl : result = .ok none := hopened
  cases heffect with
  | @opens marker api opening known =>
    let batch : LedgerUpdate :=
      { api, commitmentId := marker.commitmentId, latestCommitmentId := ctx.latestCommitmentId }
    exact ⟨opening, rfl, batch, ⟨known, rfl, rfl, rfl, rfl⟩, by simp [delivered?, batch]⟩

/-- A batch that was opened stays open until its closing marker, and delivers nothing before. -/
theorem exists_open (hopened : resultAfter codec before ⟨ctx, .marker marker⟩ = .ok none)
    (hbody : ∀ a ∈ body, a.closing? = none) :
    ∃ batch, Accumulates codec before ctx marker body batch ∧ (feed codec before idle).1 = idle ∧
      feed codec (before ++ ⟨ctx, .marker marker⟩ :: body) idle =
        (⟨some batch⟩, (feed codec before idle).2) := by
  obtain ⟨hopening, hidle, first, hempty, hfirst⟩ := feed_opening hopened
  obtain ⟨hunmarked, last, hfeed, hcollected⟩ := feed_of_collected hempty hbody
  refine ⟨last, ⟨hopening, hopened, hbody, ?_, ?_⟩, hidle, ?_⟩
  · rwa [hfirst]
  · rwa [hfirst]
  · rw [← List.singleton_append, ← List.append_assoc, feed_append, hfirst, hfeed, List.append_nil]

theorem Accumulates.feed_eq (h : Accumulates codec before ctx marker body batch) :
    (feed codec before idle).1 = idle ∧
      feed codec (before ++ ⟨ctx, .marker marker⟩ :: body) idle =
        (⟨some batch⟩, (feed codec before idle).2) := by
  obtain ⟨last, hlast, hidle, hfeed⟩ := exists_open h.opened h.unclosed
  obtain rfl := h.collected.unique hlast.collected
  exact ⟨hidle, hfeed⟩

theorem exists_accumulates (hopen : (feed codec past idle).1.batch = some batch) :
    ∃ before ctx marker body, past = before ++ ⟨ctx, .marker marker⟩ :: body ∧
      Accumulates codec before ctx marker body batch := by
  obtain ⟨ctx, marker, body, hgathers⟩ := gathers_feed codec past hopen
  obtain ⟨before, rfl, hidle⟩ := hgathers.split
  have hopened : resultAfter codec before ⟨ctx, .marker marker⟩ = .ok none := by
    rw [resultAfter, hidle]
    simp [process, hgathers.opening, openBatch, idle, hgathers.api]
  obtain ⟨last, haccumulates, -, hfeed⟩ := exists_open hopened hgathers.unclosed
  rw [hfeed] at hopen
  obtain rfl := Option.some.inj hopen
  exact ⟨before, ctx, marker, body, rfl, haccumulates⟩

/-- A closing marker that disagrees takes back all that came since the opening marker. -/
theorem Accumulates.feed_discarded (h : Accumulates codec before ctx marker body batch)
    {closing : Arrival} (hdiscards : Discards ⟨some batch⟩ closing.record) (rest : List Arrival) :
    feed codec (before ++ ⟨ctx, .marker marker⟩ :: body ++ closing :: rest) idle =
      feed codec (before ++ rest) idle := by
  obtain ⟨hidle, hfeed⟩ := h.feed_eq
  rw [feed_append, hfeed, feed_append codec before, hidle]
  simp only [feed, process_of_discards hdiscards, delivered?, Option.toList_none,
    List.nil_append]

/-- The updates delivered are the batches that a closing marker agrees with. -/
theorem mem_feed_iff {arrivals : List Arrival} {update : LedgerUpdate} :
    update ∈ (feed codec arrivals idle).2 ↔
      ∃ before ctx marker body now closing rest,
        arrivals = before ++ ⟨ctx, .marker marker⟩ :: body ++ ⟨now, .marker closing⟩ :: rest ∧
        Accumulates codec before ctx marker body update ∧
        closing.kind = .closing ∧ closes closing update := by
  constructor
  · intro hmem
    obtain ⟨past, now, closing, rest, rfl, hclosing, hcloses, hopen⟩ :=
      exists_of_mem_feed codec arrivals idle hmem
    obtain ⟨before, ctx, marker, body, rfl, haccumulates⟩ := exists_accumulates hopen
    exact ⟨before, ctx, marker, body, now, closing, rest, rfl, haccumulates, hclosing, hcloses⟩
  · rintro ⟨before, ctx, marker, body, now, closing, rest, rfl, haccumulates, hclosing, hcloses⟩
    rw [feed_append, haccumulates.feed_eq.2]
    simp [feed, process, hclosing, closeBatch, hcloses, delivered?]

/-- Whatever the codec does, a fault other than that of a discarded batch leaves the assembler as
it was, and so does any fault of a record that is not a closing marker at odds with the open batch.
Such a marker leaves the assembler idle. It alone has the fault of a discarded batch, under a codec
and a context that do not give this fault themselves.

In any stream, the updates are the batches that are made of the records accepted since the marker
that opened them, each delivered by a closing marker that agrees with it. A record that fails may
be left out of the stream, and so may the whole of a discarded batch, and all that comes between a
marker that fails to open a batch while none is open and the next opening marker. What comes behind
an opening marker that is refused for the sake of an open batch joins that batch. -/
theorem faults_leave_no_trace (codec : Codec) :
    (∀ (a : Assembler) ctx record fault, (a.process codec ctx record).2 = .error fault →
      (fault ≠ .batchMismatch → (a.process codec ctx record).1 = a) ∧
      (¬ Discards a record → (a.process codec ctx record).1 = a) ∧
      (Discards a record → fault = .batchMismatch ∧ (a.process codec ctx record).1 = idle) ∧
      (fault = .batchMismatch → ¬ codec.Raises .batchMismatch →
        (∀ slot, ctx.apiForSlot slot ≠ .error .batchMismatch) →
        Discards a record ∧ (a.process codec ctx record).1 = idle)) ∧
    (∀ arrivals update, update ∈ (feed codec arrivals idle).2 ↔
      ∃ before ctx marker body now closing rest,
        arrivals = before ++ ⟨ctx, .marker marker⟩ :: body ++ ⟨now, .marker closing⟩ :: rest ∧
        Accumulates codec before ctx marker body update ∧
        closing.kind = .closing ∧ closes closing update) ∧
    (∀ past arrival rest fault, resultAfter codec past arrival = .error fault →
      ¬ Discards (feed codec past idle).1 arrival.record →
      feed codec (past ++ arrival :: rest) idle = feed codec (past ++ rest) idle) ∧
    (∀ past closing, Discards (feed codec past idle).1 closing.record →
      resultAfter codec past closing = .error .batchMismatch ∧
      ∃ before ctx marker body batch, past = before ++ ⟨ctx, .marker marker⟩ :: body ∧
        Accumulates codec before ctx marker body batch ∧
        ∀ rest, feed codec (past ++ closing :: rest) idle = feed codec (before ++ rest) idle) ∧
    ∀ past opening body rest fault, (feed codec past idle).1 = idle →
      resultAfter codec past opening = .error fault →
      (∀ a ∈ body, ∀ marker ∈ a.marker?, marker.kind = .closing) →
      feed codec (past ++ opening :: body ++ rest) idle = feed codec (past ++ rest) idle := by
  refine ⟨?_, fun arrivals update => mem_feed_iff, ?_, ?_, ?_⟩
  · intro a ctx record fault hfault
    by_cases hdiscards : Discards a record
    · have hprocess : a.process codec ctx record = (idle, .error .batchMismatch) :=
        process_of_discards hdiscards
      rw [hprocess] at hfault ⊢
      obtain rfl := Except.error.inj hfault
      exact ⟨fun hother => absurd rfl hother, fun hkeeps => absurd hdiscards hkeeps,
        fun _ => ⟨rfl, rfl⟩, fun _ _ _ => ⟨hdiscards, rfl⟩⟩
    · obtain ⟨-, hsame⟩ := (refuses_or_discards hfault).resolve_right fun h => hdiscards h.1
      refine ⟨fun _ => hsame, fun _ => hsame, fun h => absurd h hdiscards, ?_⟩
      rintro rfl hcodec hcontext
      exact absurd (discards_of_mismatch hfault hcodec hcontext) hdiscards
  · intro past arrival rest fault hfault hkeeps
    exact feed_omit_failed hfault hkeeps rest
  · intro past closing hdiscards
    refine ⟨congrArg Prod.snd (process_of_discards hdiscards), ?_⟩
    obtain ⟨batch, hopen⟩ := hdiscards.isOpen
    obtain ⟨before, ctx, marker, body, rfl, haccumulates⟩ := exists_accumulates hopen
    rw [haccumulates.feed_eq.2] at hdiscards
    exact ⟨before, ctx, marker, body, batch, rfl, haccumulates,
      haccumulates.feed_discarded hdiscards⟩
  · intro past opening body rest fault hidle hfault hbody
    have hkeeps : ¬ Discards (feed codec past idle).1 opening.record := by
      rw [hidle]
      exact not_discards_idle opening.record
    have hnothing : feed codec body (feed codec past idle).1 = ((feed codec past idle).1, []) := by
      rw [hidle, feed_idle hbody]
    rw [List.append_assoc, List.cons_append, feed_omit_failed hfault hkeeps, ← List.append_assoc,
      feed_omit hnothing]

/-- One spent output, in a batch of its own. -/
def singleSpent : List Arrival :=
  [.marker { kind := .opening }, .consumed { output := twoFeatures },
    .marker { kind := .closing, consumedCount := 1 }].map
      (Arrival.mk Connection.featuresOnly.cache.context)

/-- The batch comes through after an output out of place, after the same batch with another count,
which is discarded, and after a second opening marker in its middle. -/
theorem faults_leave_no_trace_singleSpent :
    let now := Arrival.mk Connection.featuresOnly.cache.context
    let stray := now (.consumed { output := twoFeatures })
    let opening := now (.marker { kind := .opening })
    let miscounted := now (.marker { kind := .closing, consumedCount := 2 })
    (∃ update, (feed .featuresOnly singleSpent idle).2 = [update] ∧ update.consumed.length = 1) ∧
      ((feed .featuresOnly (singleSpent.take 2) idle).1.process .featuresOnly miscounted.ctx
        miscounted.record).1 = idle ∧
      feed .featuresOnly ([] ++ stray :: singleSpent) idle = feed .featuresOnly singleSpent idle ∧
      feed .featuresOnly (singleSpent.take 2 ++ miscounted :: singleSpent) idle =
        feed .featuresOnly singleSpent idle ∧
      feed .featuresOnly (singleSpent.take 2 ++ opening :: singleSpent.drop 2) idle =
        feed .featuresOnly singleSpent idle := by
  intro now stray opening miscounted
  obtain ⟨hfaults, -, homit, hdiscard, -⟩ := faults_leave_no_trace .featuresOnly
  obtain ⟨-, -, -, hmismatch⟩ := hfaults (feed .featuresOnly (singleSpent.take 2) idle).1
    miscounted.ctx miscounted.record .batchMismatch rfl
  obtain ⟨hmiscounted, hidle⟩ := hmismatch rfl Codec.featuresOnly_not_raises
    (Connection.featuresOnly.cache.apiForSlot_ne_mismatch)
  refine ⟨⟨_, rfl, rfl⟩, hidle, ?_, ?_, ?_⟩
  · exact homit [] stray singleSpent .noOpenBatch rfl (not_discards_idle stray.record)
  · obtain ⟨-, before, ctx, marker, body, batch, hsplit, haccumulates, hfeed⟩ :=
      hdiscard _ miscounted hmiscounted
    obtain rfl : before = [] := by
      rcases before with _ | ⟨first, _ | ⟨second, tail⟩⟩
      · rfl
      · simp [singleSpent] at hsplit
      · simp [singleSpent] at hsplit
    exact hfeed singleSpent
  · refine homit (singleSpent.take 2) opening (singleSpent.drop 2) .batchAlreadyOpen rfl ?_
    rintro ⟨marker, -, hmarker, hclosing, -, -⟩
    obtain rfl := LedgerRecord.marker.inj hmarker
    cases hclosing

end Assembler

/-- A codec that meets every output with the fault of a discarded batch. -/
def Codec.mismatching : Codec :=
  { standard with decodeOutput := fun _ _ => .error .batchMismatch }

namespace Assembler

/-- Where the codec gives the fault of a discarded batch, the batch is still open after it. And the
output that comes behind the refused opening marker of another batch is delivered with the open
one. -/
theorem batch_outlives_mismatch_and_refusal :
    let now := Arrival.mk Connection.featuresOnly.cache.context
    let opened : Assembler :=
      ⟨some { api := {}, commitmentId := .empty, latestCommitmentId := .empty }⟩
    let opening := now (.marker { kind := .opening })
    let another := now (.marker { kind := .opening, commitmentId := ⟨Hash.zero, 1⟩ })
    let closing := now (.marker { kind := .closing, createdCount := 1 })
    (opened.process .mismatching Connection.featuresOnly.cache.context (.created twoFeatures) =
      (opened, .error .batchMismatch) ∧ opened ≠ idle) ∧
      resultAfter .featuresOnly [opening] another = .error .batchAlreadyOpen ∧
      ∃ update output,
        feed .featuresOnly [opening, another, now (.created twoFeatures), closing] idle =
          (idle, [update]) ∧
        update.created = [output] ∧ output.raw = twoFeatures.output := by
  refine ⟨⟨rfl, ?_⟩, rfl, _, _, rfl, rfl, rfl⟩
  intro hidle
  cases hidle

end Assembler

end LedgerWatch
