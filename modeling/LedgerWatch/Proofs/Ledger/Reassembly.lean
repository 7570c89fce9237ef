import Mathlib.Data.List.Forall2
import LedgerWatch.Proofs.Ledger.Batches

/-!
# Reassembly is exact

An assembler that is fed a stream of records up to the first fault delivers exactly the updates
that the stream amounts to, one for each closing marker, and fails at the first record that may not
come there.

## Main definitions

- `Assembler.run`: the records of a stream up to the first fault
- `Assembler.Holds`: the assembler holds the batch open after some arrivals
- `closings`: the closing markers of a stream

## Main results

- `Assembler.Holds.rejected_iff`: which record fails, and how
- `Assembler.Holds.next`: a record that does not fail
- `Assembler.run_idle_exact`: whole runs
-/

namespace LedgerWatch

/-- How a run over a stream ends. -/
structure AssemblerRun where
  /-- The updates delivered, in order. -/
  delivered : List LedgerUpdate := []
  /-- How many records were processed without a fault. -/
  processed : Nat := 0
  /-- The fault that ended the run, if one did. -/
  fault : Option Fault := none

/-- The run with one record more in front, and with the update that the record delivered. -/
def AssemblerRun.after (update : Option LedgerUpdate) (r : AssemblerRun) : AssemblerRun :=
  { r with delivered := update.toList ++ r.delivered, processed := r.processed + 1 }

/-- Processes the records of a stream until one fails. -/
def Assembler.run (codec : Codec) : List Arrival → Assembler → AssemblerRun
  | [], _ => {}
  | arrival :: rest, a =>
    match a.process codec arrival.ctx arrival.record with
    | (_, .error fault) => { fault := some fault }
    | (a, .ok update) => (Assembler.run codec rest a).after update

/-- The closing markers of a stream, each with all arrivals before it. -/
def closings (past : List Arrival) : List Arrival → List (List Arrival × BatchMarker)
  | [] => []
  | arrival :: rest =>
    (arrival.closing?.toList.map fun marker => (past, marker)) ++ closings (past ++ [arrival]) rest

/-- The record at a position may not come there. -/
def RejectedAt (codec : Codec) (past arrivals : List Arrival) (i : Nat) (fault : Fault) : Prop :=
  ∃ arrival, arrivals[i]? = some arrival ∧ Rejected codec (past ++ arrivals.take i) arrival fault

/-- The record at a position is the first that may not come where it does. -/
def FirstRejectedAt (codec : Codec) (past arrivals : List Arrival) (i : Nat) (fault : Fault) :
    Prop :=
  RejectedAt codec past arrivals i fault ∧
    ∀ j < i, ∀ other, ¬ RejectedAt codec past arrivals j other

/-- An arrival in which the opening marker declares no counts. -/
def Arrival.undeclared (arrival : Arrival) : Arrival :=
  match arrival.record with
  | .marker marker =>
    match marker.kind with
    | .opening =>
      { arrival with record := .marker { marker with consumedCount := 0, createdCount := 0 } }
    | .closing => arrival
  | .consumed _ | .created _ => arrival

namespace Assembler

/-- The assembler holds the batch that is open after the past arrivals. -/
def Holds (codec : Codec) (past : List Arrival) (a : Assembler) : Prop :=
  match a.batch with
  | none => ¬ IsOpen past
  | some batch => HasBatch codec past batch

variable {codec : Codec} {past : List Arrival} {a : Assembler}

theorem Holds.isOpen_iff (h : Holds codec past a) : IsOpen past ↔ a.batch.isSome := by
  unfold Holds at h
  cases hbatch : a.batch with
  | none => simpa [hbatch] using h
  | some batch =>
    rw [hbatch] at h
    simpa using h.isOpen

theorem Holds.hasBatch_iff (h : Holds codec past a) (batch : LedgerUpdate) :
    HasBatch codec past batch ↔ a.batch = some batch := by
  unfold Holds at h
  cases hbatch : a.batch with
  | none =>
    rw [hbatch] at h
    simpa using fun hhas => h (HasBatch.isOpen hhas)
  | some held =>
    rw [hbatch] at h
    constructor
    · intro hhas
      rw [h.unique hhas]
    · rintro ⟨⟩
      exact h

theorem holds_idle : Holds codec [] idle := not_isOpen_nil

theorem closes_iff (marker : BatchMarker) (batch : LedgerUpdate) :
    closes marker batch = true ↔ Agrees marker batch := by
  simp only [closes, Bool.and_eq_true, beq_iff_eq]
  constructor
  · rintro ⟨⟨hconsumed, hcreated⟩, hid⟩
    exact ⟨hid, hconsumed, hcreated⟩
  · rintro ⟨hid, hconsumed, hcreated⟩
    exact ⟨⟨hconsumed, hcreated⟩, hid⟩

theorem Holds.openBatch_error_iff (h : Holds codec past a) (ctx : BatchContext)
    (marker : BatchMarker) (fault : Fault) :
    (a.openBatch ctx marker).2 = .error fault ↔
      IsOpen past ∧ .batchAlreadyOpen = fault ∨
        ¬ IsOpen past ∧ ctx.apiForSlot marker.commitmentId.slot = .error fault := by
  rw [h.isOpen_iff]
  cases hbatch : a.batch with
  | some batch => simp [openBatch, hbatch]
  | none => cases hapi : ctx.apiForSlot marker.commitmentId.slot <;> simp [openBatch, hbatch, hapi]

theorem Holds.closeBatch_error_iff (h : Holds codec past a) (marker : BatchMarker)
    (fault : Fault) :
    (a.closeBatch marker).2 = .error fault ↔
      ¬ IsOpen past ∧ .noOpenBatch = fault ∨
        ∃ batch, HasBatch codec past batch ∧ ¬ Agrees marker batch ∧ .batchMismatch = fault := by
  simp only [h.isOpen_iff, h.hasBatch_iff, ← closes_iff]
  cases hbatch : a.batch with
  | none => simp [closeBatch, hbatch]
  | some batch => cases hcloses : closes marker batch <;> simp [closeBatch, hbatch, hcloses]

theorem Holds.collect_error_iff (h : Holds codec past a)
    (verify : LedgerUpdate → Except Fault VerifiedOutput)
    (add : LedgerUpdate → VerifiedOutput → LedgerUpdate) (fault : Fault) :
    (a.collect verify add).2 = .error fault ↔
      ¬ IsOpen past ∧ .noOpenBatch = fault ∨
        ∃ batch, HasBatch codec past batch ∧ verify batch = .error fault := by
  simp only [h.isOpen_iff, h.hasBatch_iff]
  cases hbatch : a.batch with
  | none => simp [collect, hbatch]
  | some batch => cases hverify : verify batch <;> simp [collect, hbatch, hverify]

/-- The records that fail are those that may not come next, and they fail with their fault. -/
theorem Holds.rejected_iff (h : Holds codec past a) (arrival : Arrival) (fault : Fault) :
    Rejected codec past arrival fault ↔
      (a.process codec arrival.ctx arrival.record).2 = .error fault := by
  obtain ⟨ctx, record⟩ := arrival
  -- Of the rejections those remain that are for a record of this kind.
  cases record with
  | marker marker =>
    cases hkind : marker.kind with
    | opening =>
      simp only [process, hkind, h.openBatch_error_iff]
      constructor
      · rintro (⟨-, hopen⟩ | ⟨-, hclosed, hunknown⟩ | ⟨hnot, -⟩ | - | - | ⟨hclosing, -, -⟩)
        · exact .inl ⟨hopen, rfl⟩
        · exact .inr ⟨hclosed, hunknown⟩
        · simp [Arrival.marker?, hkind] at hnot
        · simp [hkind] at hclosing
      · rintro (⟨hopen, rfl⟩ | ⟨hclosed, hunknown⟩)
        · exact .alreadyOpen hkind hopen
        · exact .noParameters hkind hclosed hunknown
    | closing =>
      simp only [process, hkind, h.closeBatch_error_iff]
      constructor
      · rintro (⟨hopening, -⟩ | ⟨hopening, -, -⟩ | ⟨-, hclosed⟩ | - | - | ⟨-, hhas, hdisagrees⟩)
        · simp [hkind] at hopening
        · simp [hkind] at hopening
        · exact .inl ⟨hclosed, rfl⟩
        · exact .inr ⟨_, hhas, hdisagrees, rfl⟩
      · rintro (⟨hclosed, rfl⟩ | ⟨batch, hhas, hdisagrees, rfl⟩)
        · exact .notOpen (by simp [Arrival.marker?, hkind]) hclosed
        · exact .disagrees hkind hhas hdisagrees
  | consumed spent =>
    simp only [process, h.collect_error_iff]
    constructor
    · rintro (- | - | ⟨-, hclosed⟩ | ⟨hhas, hbad⟩ | - | -)
      · exact .inl ⟨hclosed, rfl⟩
      · exact .inr ⟨_, hhas, hbad⟩
    · rintro (⟨hclosed, rfl⟩ | ⟨batch, hhas, hbad⟩)
      · exact .notOpen (by simp [Arrival.marker?]) hclosed
      · exact .badSpent hhas hbad
  | created raw =>
    simp only [process, h.collect_error_iff]
    constructor
    · rintro (- | - | ⟨-, hclosed⟩ | - | ⟨hhas, hbad⟩ | -)
      · exact .inl ⟨hclosed, rfl⟩
      · exact .inr ⟨_, hhas, hbad⟩
    · rintro (⟨hclosed, rfl⟩ | ⟨batch, hhas, hbad⟩)
      · exact .notOpen (by simp [Arrival.marker?]) hclosed
      · exact .badCreated hhas hbad

theorem holds_of_openBatch {ctx : BatchContext} {marker : BatchMarker}
    (hkind : marker.kind = .opening) {a' : Assembler} {update : Option LedgerUpdate}
    (hrun : a.openBatch ctx marker = (a', .ok update)) :
    Holds codec (past ++ [⟨ctx, .marker marker⟩]) a' ∧ update = none := by
  cases hbatch : a.batch with
  | some batch => simp [openBatch, hbatch] at hrun
  | none =>
    cases hapi : ctx.apiForSlot marker.commitmentId.slot with
    | error fault => simp [openBatch, hbatch, hapi] at hrun
    | ok api =>
      simp only [openBatch, hbatch, hapi, Prod.mk.injEq, Except.ok.injEq] at hrun
      obtain ⟨rfl, rfl⟩ := hrun
      exact ⟨⟨ctx, marker, [], .of_opening past ctx hkind, hapi, rfl, rfl, rfl, rfl⟩, rfl⟩

theorem Holds.closeBatch_ok (h : Holds codec past a) (ctx : BatchContext) {marker : BatchMarker}
    (hkind : marker.kind = .closing) {a' : Assembler} {update : Option LedgerUpdate}
    (hrun : a.closeBatch marker = (a', .ok update)) :
    Holds codec (past ++ [⟨ctx, .marker marker⟩]) a' ∧
      ∃ batch, update = some batch ∧ Completes codec past marker batch := by
  cases hbatch : a.batch with
  | none => simp [closeBatch, hbatch] at hrun
  | some batch =>
    cases hcloses : closes marker batch with
    | false => simp [closeBatch, hbatch, hcloses] at hrun
    | true =>
      simp only [closeBatch, hbatch, hcloses, if_true, Prod.mk.injEq, Except.ok.injEq] at hrun
      obtain ⟨rfl, rfl⟩ := hrun
      exact ⟨not_isOpen_of_closing past ctx hkind, batch, rfl, (h.hasBatch_iff batch).mpr hbatch,
        (closes_iff marker batch).mp hcloses⟩

theorem Holds.collect_ok (h : Holds codec past a)
    {verify : LedgerUpdate → Except Fault VerifiedOutput}
    {add : LedgerUpdate → VerifiedOutput → LedgerUpdate} {a' : Assembler}
    {update : Option LedgerUpdate} (hrun : a.collect verify add = (a', .ok update)) :
    update = none ∧ ∃ batch output, HasBatch codec past batch ∧ verify batch = .ok output ∧
      a' = ⟨some (add batch output)⟩ := by
  cases hbatch : a.batch with
  | none => simp [collect, hbatch] at hrun
  | some batch =>
    cases hverify : verify batch with
    | error fault => simp [collect, hbatch, hverify] at hrun
    | ok output =>
      simp only [collect, hbatch, hverify, Prod.mk.injEq, Except.ok.injEq] at hrun
      obtain ⟨rfl, rfl⟩ := hrun
      exact ⟨rfl, batch, output, (h.hasBatch_iff batch).mpr hbatch, hverify, rfl⟩

/-- After a record that does not fail the assembler holds the batch open then, and it has delivered
an update exactly if the record is a closing marker. -/
theorem Holds.next (h : Holds codec past a) {arrival : Arrival} {a' : Assembler}
    {update : Option LedgerUpdate}
    (hrun : a.process codec arrival.ctx arrival.record = (a', .ok update)) :
    Holds codec (past ++ [arrival]) a' ∧
      List.Forall₂ (Completes codec past) arrival.closing?.toList update.toList := by
  obtain ⟨ctx, record⟩ := arrival
  cases record with
  | marker marker =>
    cases hkind : marker.kind with
    | opening =>
      simp only [process, hkind] at hrun
      obtain ⟨hholds, rfl⟩ := holds_of_openBatch hkind hrun
      simpa [Arrival.closing?, Arrival.marker?, Option.filter, hkind] using hholds
    | closing =>
      simp only [process, hkind] at hrun
      obtain ⟨hholds, batch, rfl, hcompletes⟩ := h.closeBatch_ok ctx hkind hrun
      simpa [Arrival.closing?, Arrival.marker?, Option.filter, hkind] using ⟨hholds, hcompletes⟩
  | consumed spent =>
    obtain ⟨rfl, batch, output, hhas, hverify, rfl⟩ := h.collect_ok hrun
    exact ⟨hhas.concat_consumed ctx hverify, .nil⟩
  | created raw =>
    obtain ⟨rfl, batch, output, hhas, hverify, rfl⟩ := h.collect_ok hrun
    exact ⟨hhas.concat_created ctx hverify, .nil⟩

end Assembler

/-! ## Positions -/

theorem rejectedAt_zero {codec : Codec} {past rest : List Arrival} {arrival : Arrival}
    {fault : Fault} :
    RejectedAt codec past (arrival :: rest) 0 fault ↔ Rejected codec past arrival fault := by
  simp [RejectedAt]

theorem rejectedAt_succ {codec : Codec} {past rest : List Arrival} {arrival : Arrival} {i : Nat}
    {fault : Fault} :
    RejectedAt codec past (arrival :: rest) (i + 1) fault ↔
      RejectedAt codec (past ++ [arrival]) rest i fault := by
  simp [RejectedAt]

theorem firstRejectedAt_zero {codec : Codec} {past rest : List Arrival} {arrival : Arrival}
    {fault : Fault} :
    FirstRejectedAt codec past (arrival :: rest) 0 fault ↔ Rejected codec past arrival fault := by
  simp [FirstRejectedAt, rejectedAt_zero]

/-- The first record to be rejected comes later if this one is not. -/
theorem firstRejectedAt_succ {codec : Codec} {past rest : List Arrival} {arrival : Arrival}
    {i : Nat} {fault : Fault} :
    FirstRejectedAt codec past (arrival :: rest) (i + 1) fault ↔
      (∀ other, ¬ Rejected codec past arrival other) ∧
        FirstRejectedAt codec (past ++ [arrival]) rest i fault := by
  simp only [FirstRejectedAt, rejectedAt_succ]
  constructor
  · rintro ⟨hat, hbefore⟩
    refine ⟨fun other h => hbefore 0 (by omega) other (rejectedAt_zero.mpr h), hat, ?_⟩
    intro j hj other h
    exact hbefore (j + 1) (by omega) other (rejectedAt_succ.mpr h)
  · rintro ⟨hfirst, hat, hbefore⟩
    refine ⟨hat, ?_⟩
    intro j hj other h
    cases j with
    | zero => exact hfirst other (rejectedAt_zero.mp h)
    | succ j => exact hbefore j (by omega) other (rejectedAt_succ.mp h)

/-! ## Whole runs -/

namespace Assembler

/-- The updates delivered are those that the closing markers before the fault complete. -/
theorem Holds.run_delivered {codec : Codec} {past : List Arrival} {a : Assembler}
    (h : Holds codec past a) (arrivals : List Arrival) :
    List.Forall₂ (fun closing batch => Completes codec closing.1 closing.2 batch)
      (closings past (arrivals.take (run codec arrivals a).processed))
      (run codec arrivals a).delivered := by
  induction arrivals generalizing past a with
  | nil => exact .nil
  | cons arrival rest ih =>
    rcases hrun : a.process codec arrival.ctx arrival.record with ⟨a', fault | update⟩
    · simp [run, hrun, closings]
    · -- The arrival joins the past, so the rest runs under the batch that is open now.
      obtain ⟨hholds, hdelivers⟩ := h.next hrun
      have hhere : List.Forall₂ (fun closing batch => Completes codec closing.1 closing.2 batch)
          (arrival.closing?.toList.map fun marker => (past, marker)) update.toList :=
        List.forall₂_map_left_iff.mpr hdelivers
      simp only [run, hrun, AssemblerRun.after, List.take_succ_cons, closings]
      exact List.rel_append hhere (ih hholds)

/-- The run ends with a fault exactly at the first record that may not come where it does. -/
theorem Holds.run_fault_iff {codec : Codec} {past : List Arrival} {a : Assembler}
    (h : Holds codec past a) (arrivals : List Arrival) (i : Nat) (fault : Fault) :
    (run codec arrivals a).processed = i ∧ (run codec arrivals a).fault = some fault ↔
      FirstRejectedAt codec past arrivals i fault := by
  induction arrivals generalizing past a i with
  | nil => simp [run, FirstRejectedAt, RejectedAt]
  | cons arrival rest ih =>
    -- A position behind this arrival is one in the rest, provided that this one does not fail.
    have hrejected := h.rejected_iff arrival
    rcases hrun : a.process codec arrival.ctx arrival.record with ⟨a', found | update⟩
    · rw [hrun] at hrejected
      cases i with
      | zero => simp [run, hrun, firstRejectedAt_zero, hrejected]
      | succ i => simp [run, hrun, firstRejectedAt_succ, hrejected]
    · rw [hrun] at hrejected
      obtain ⟨hholds, -⟩ := h.next hrun
      cases i with
      | zero => simp [run, hrun, AssemblerRun.after, firstRejectedAt_zero, hrejected]
      | succ i => simp [run, hrun, AssemblerRun.after, firstRejectedAt_succ, hrejected, ih hholds]

theorem run_processed {codec : Codec} (arrivals : List Arrival) (a : Assembler)
    (h : (run codec arrivals a).fault = none) :
    (run codec arrivals a).processed = arrivals.length := by
  induction arrivals generalizing a with
  | nil => rfl
  | cons arrival rest ih =>
    rcases hrun : a.process codec arrival.ctx arrival.record with ⟨a', fault | update⟩
    · simp [run, hrun] at h
    · simp only [run, hrun, AssemblerRun.after] at h ⊢
      rw [ih a' h, List.length_cons]

/-- The counts that an opening marker declares do not matter to a record's processing. -/
theorem process_undeclared (codec : Codec) (arrival : Arrival) (a : Assembler) :
    a.process codec arrival.undeclared.ctx arrival.undeclared.record =
      a.process codec arrival.ctx arrival.record := by
  obtain ⟨ctx, record⟩ := arrival
  cases record with
  | marker marker =>
    cases hkind : marker.kind <;> simp [Arrival.undeclared, process, openBatch, hkind]
  | consumed spent => rfl
  | created raw => rfl

theorem run_undeclared (codec : Codec) (arrivals : List Arrival) (a : Assembler) :
    run codec (arrivals.map Arrival.undeclared) a = run codec arrivals a := by
  induction arrivals generalizing a with
  | nil => rfl
  | cons arrival rest ih => simp only [List.map_cons, run, process_undeclared, ih]

/-- Up to its first fault a stream that an idle assembler is fed delivers one update for each
closing marker, made of the records since its opening marker under the context of that marker. It
ends with a fault exactly at the first record that may not come where it does. The counts that
opening markers declare play no part. -/
theorem run_idle_exact (codec : Codec) (arrivals : List Arrival) :
    List.Forall₂ (fun closing batch => Completes codec closing.1 closing.2 batch)
        (closings [] (arrivals.take (run codec arrivals idle).processed))
        (run codec arrivals idle).delivered ∧
      (∀ i fault, (run codec arrivals idle).processed = i ∧
          (run codec arrivals idle).fault = some fault ↔
        FirstRejectedAt codec [] arrivals i fault) ∧
      ((run codec arrivals idle).fault = none →
        (run codec arrivals idle).processed = arrivals.length) ∧
      run codec (arrivals.map Arrival.undeclared) idle = run codec arrivals idle :=
  ⟨holds_idle.run_delivered arrivals, holds_idle.run_fault_iff arrivals,
    run_processed arrivals idle, run_undeclared codec arrivals idle⟩

end Assembler

end LedgerWatch
