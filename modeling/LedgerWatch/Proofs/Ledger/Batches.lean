import Mathlib.Data.List.Basic
import LedgerWatch.Ledger.Assembler

/-!
# Batches in a stream of records

What a stream of ledger records amounts to, told from the records alone and without the state of an
assembler. The last marker before a record decides whether a batch is open there, and an open batch
is made of the records since that marker.

## Main definitions

- `Arrival`: a record with what is known about the node when it arrives
- `Opened`, `IsOpen`: the batch open after some arrivals
- `HasBatch`: what that batch amounts to
- `Completes`: a closing marker and the update that it delivers
- `Rejected`: the records that may not come next, and their faults

## Main results

- `Opened.unique`, `HasBatch.unique`: at most one batch is open, and it amounts to one update
-/

namespace LedgerWatch

/-- A record of the stream, with what is known about the node when it arrives. -/
structure Arrival where
  ctx : BatchContext
  record : LedgerRecord

namespace Arrival

/-- The marker that arrives, if a marker does. -/
def marker? (a : Arrival) : Option BatchMarker :=
  match a.record with
  | .marker marker => some marker
  | .consumed _ | .created _ => none

def spent? (a : Arrival) : Option RawSpent :=
  match a.record with
  | .consumed spent => some spent
  | .marker _ | .created _ => none

def created? (a : Arrival) : Option RawOutput :=
  match a.record with
  | .created raw => some raw
  | .marker _ | .consumed _ => none

def closing? (a : Arrival) : Option BatchMarker :=
  a.marker?.filter fun marker => marker.kind = .closing

end Arrival

/-- The last marker among the past arrivals is an opening one, and `body` came after it. -/
structure Opened (past : List Arrival) (ctx : BatchContext) (marker : BatchMarker)
    (body : List Arrival) : Prop where
  split : ∃ before, past = before ++ ⟨ctx, .marker marker⟩ :: body
  opening : marker.kind = .opening
  unmarked : ∀ a ∈ body, a.marker? = none

def IsOpen (past : List Arrival) : Prop := ∃ ctx marker body, Opened past ctx marker body

/-- `batch` is what the records of `body` amount to in a batch that `marker` opened under `ctx`.
The counts that the marker declares are not mentioned, nor is any later context. -/
structure Collected (codec : Codec) (ctx : BatchContext) (marker : BatchMarker)
    (body : List Arrival) (batch : LedgerUpdate) : Prop where
  api : ctx.apiForSlot marker.commitmentId.slot = .ok batch.api
  commitmentId : batch.commitmentId = marker.commitmentId
  latestCommitmentId : batch.latestCommitmentId = ctx.latestCommitmentId
  consumed : (body.filterMap Arrival.spent?).map
    (verifySpent codec batch.api batch.latestCommitmentId) = batch.consumed.map .ok
  created : (body.filterMap Arrival.created?).map
    (verifyUnspent codec batch.api batch.latestCommitmentId) = batch.created.map .ok

/-- A batch is open after the past arrivals, and it amounts to `batch`. -/
def HasBatch (codec : Codec) (past : List Arrival) (batch : LedgerUpdate) : Prop :=
  ∃ ctx marker body, Opened past ctx marker body ∧ Collected codec ctx marker body batch

/-- A closing marker agrees with the batch open before it. -/
structure Agrees (closing : BatchMarker) (batch : LedgerUpdate) : Prop where
  commitmentId : batch.commitmentId = closing.commitmentId
  consumedCount : batch.consumed.length = closing.consumedCount.toNat
  createdCount : batch.created.length = closing.createdCount.toNat

/-- A closing marker after the past arrivals delivers `batch`. -/
structure Completes (codec : Codec) (past : List Arrival) (closing : BatchMarker)
    (batch : LedgerUpdate) : Prop where
  hasBatch : HasBatch codec past batch
  agrees : Agrees closing batch

/-- The arrivals that may not come after the past ones, each with its fault. -/
inductive Rejected (codec : Codec) (past : List Arrival) : Arrival → Fault → Prop
  /-- An opening marker while a batch is open. -/
  | alreadyOpen {ctx marker} (opening : marker.kind = .opening) (isOpen : IsOpen past) :
      Rejected codec past ⟨ctx, .marker marker⟩ .batchAlreadyOpen
  /-- An opening marker whose context knows no parameters for the slot. -/
  | noParameters {ctx marker fault} (opening : marker.kind = .opening) (notOpen : ¬ IsOpen past)
      (unknown : ctx.apiForSlot marker.commitmentId.slot = .error fault) :
      Rejected codec past ⟨ctx, .marker marker⟩ fault
  /-- An output or a closing marker while no batch is open. -/
  | notOpen {arrival} (notOpening : ∀ marker ∈ arrival.marker?, marker.kind = .closing)
      (notOpen : ¬ IsOpen past) : Rejected codec past arrival .noOpenBatch
  /-- A spent output that cannot be verified under the context of the batch. -/
  | badSpent {ctx spent batch fault} (hasBatch : HasBatch codec past batch)
      (bad : verifySpent codec batch.api batch.latestCommitmentId spent = .error fault) :
      Rejected codec past ⟨ctx, .consumed spent⟩ fault
  /-- A created output that cannot be verified under the context of the batch. -/
  | badCreated {ctx raw batch fault} (hasBatch : HasBatch codec past batch)
      (bad : verifyUnspent codec batch.api batch.latestCommitmentId raw = .error fault) :
      Rejected codec past ⟨ctx, .created raw⟩ fault
  /-- A closing marker that disagrees with the batch. -/
  | disagrees {ctx marker batch} (closing : marker.kind = .closing)
      (hasBatch : HasBatch codec past batch) (disagrees : ¬ Agrees marker batch) :
      Rejected codec past ⟨ctx, .marker marker⟩ .batchMismatch

/-- The last element of a list that fails a property, and what follows it, are determined. -/
theorem split_at_last_unique {α : Type} {p : α → Prop} {before before' body body' : List α}
    {x x' : α} (h : before ++ x :: body = before' ++ x' :: body') (hx : ¬ p x) (hx' : ¬ p x')
    (hbody : ∀ a ∈ body, p a) (hbody' : ∀ a ∈ body', p a) : x = x' ∧ body = body' := by
  -- If the splits were apart, one of the two elements would lie in the other's tail.
  rcases List.append_eq_append_iff.mp h with ⟨gap, -, hgap⟩ | ⟨gap, -, hgap⟩
  · cases gap with
    | nil => exact List.cons.inj hgap
    | cons y gap =>
      obtain ⟨-, htail⟩ := List.cons.inj hgap
      exact absurd (hbody x' (by simp [htail])) hx'
  · cases gap with
    | nil => exact (List.cons.inj hgap).imp Eq.symm Eq.symm
    | cons y gap =>
      obtain ⟨-, htail⟩ := List.cons.inj hgap
      exact absurd (hbody' x (by simp [htail])) hx

theorem Opened.unique {past : List Arrival} {ctx ctx' : BatchContext} {marker marker' : BatchMarker}
    {body body' : List Arrival} (h : Opened past ctx marker body)
    (h' : Opened past ctx' marker' body') : ctx = ctx' ∧ marker = marker' ∧ body = body' := by
  obtain ⟨before, hsplit⟩ := h.split
  obtain ⟨before', hsplit'⟩ := h'.split
  obtain ⟨hopen, hbody⟩ := split_at_last_unique (hsplit.symm.trans hsplit')
    (by simp [Arrival.marker?]) (by simp [Arrival.marker?]) h.unmarked h'.unmarked
  simp only [Arrival.mk.injEq, LedgerRecord.marker.injEq] at hopen
  exact ⟨hopen.1, hopen.2, hbody⟩

theorem Opened.of_opening (past : List Arrival) (ctx : BatchContext) {marker : BatchMarker}
    (h : marker.kind = .opening) : Opened (past ++ [⟨ctx, .marker marker⟩]) ctx marker [] :=
  ⟨⟨past, rfl⟩, h, by simp⟩

/-- An output joins the records of the open batch. -/
theorem Opened.concat {past : List Arrival} {ctx : BatchContext} {marker : BatchMarker}
    {body : List Arrival} (h : Opened past ctx marker body) {arrival : Arrival}
    (ha : arrival.marker? = none) : Opened (past ++ [arrival]) ctx marker (body ++ [arrival]) := by
  obtain ⟨before, rfl⟩ := h.split
  refine ⟨⟨before, by simp⟩, h.opening, ?_⟩
  intro a ha'
  rcases List.mem_append.mp ha' with hbody | hlast
  · exact h.unmarked a hbody
  · rwa [List.mem_singleton.mp hlast]

theorem not_isOpen_nil : ¬ IsOpen [] := by
  rintro ⟨ctx, marker, body, h⟩
  obtain ⟨before, hsplit⟩ := h.split
  simp at hsplit

theorem not_isOpen_of_closing (past : List Arrival) (ctx : BatchContext) {marker : BatchMarker}
    (h : marker.kind = .closing) : ¬ IsOpen (past ++ [⟨ctx, .marker marker⟩]) := by
  rintro ⟨ctx', marker', body, hopen⟩
  obtain ⟨before, hsplit⟩ := hopen.split
  have hnone : ∀ a ∈ ([] : List Arrival), a.marker? = none := by simp
  obtain ⟨hlast, -⟩ := split_at_last_unique hsplit (by simp [Arrival.marker?])
    (by simp [Arrival.marker?]) hnone hopen.unmarked
  simp only [Arrival.mk.injEq, LedgerRecord.marker.injEq] at hlast
  have hopening := hopen.opening
  simp [← hlast.2, h] at hopening

/-- An open batch amounts to one update at most. -/
theorem Collected.unique {codec : Codec} {ctx : BatchContext} {marker : BatchMarker}
    {body : List Arrival} {batch batch' : LedgerUpdate} (h : Collected codec ctx marker body batch)
    (h' : Collected codec ctx marker body batch') : batch = batch' := by
  have hapi : batch.api = batch'.api := by simpa [h.api] using h'.api
  have hlatest : batch.latestCommitmentId = batch'.latestCommitmentId :=
    h.latestCommitmentId.trans h'.latestCommitmentId.symm
  have ok_injective :
      Function.Injective (Except.ok : VerifiedOutput → Except Fault VerifiedOutput) :=
    fun _ _ => Except.ok.inj
  have hconsumed : batch.consumed = batch'.consumed := by
    apply List.map_injective_iff.mpr ok_injective
    rw [← h.consumed, ← h'.consumed, hapi, hlatest]
  have hcreated : batch.created = batch'.created := by
    apply List.map_injective_iff.mpr ok_injective
    rw [← h.created, ← h'.created, hapi, hlatest]
  have hid : batch.commitmentId = batch'.commitmentId := h.commitmentId.trans h'.commitmentId.symm
  cases batch
  cases batch'
  simp_all

theorem HasBatch.isOpen {codec : Codec} {past : List Arrival} {batch : LedgerUpdate}
    (h : HasBatch codec past batch) : IsOpen past := by
  obtain ⟨ctx, marker, body, hopen, -⟩ := h
  exact ⟨ctx, marker, body, hopen⟩

theorem HasBatch.unique {codec : Codec} {past : List Arrival} {batch batch' : LedgerUpdate}
    (h : HasBatch codec past batch) (h' : HasBatch codec past batch') : batch = batch' := by
  obtain ⟨ctx, marker, body, hopen, hcollected⟩ := h
  obtain ⟨ctx', marker', body', hopen', hcollected'⟩ := h'
  obtain ⟨rfl, rfl, rfl⟩ := hopen.unique hopen'
  exact hcollected.unique hcollected'

/-- A verified spent output joins the consumed ones. -/
theorem Collected.concat_consumed {codec : Codec} {ctx : BatchContext} {marker : BatchMarker}
    {body : List Arrival} {batch : LedgerUpdate} (h : Collected codec ctx marker body batch)
    (now : BatchContext) {spent : RawSpent} {output : VerifiedOutput}
    (hverify : verifySpent codec batch.api batch.latestCommitmentId spent = .ok output) :
    Collected codec ctx marker (body ++ [⟨now, .consumed spent⟩])
      { batch with consumed := batch.consumed ++ [output] } where
  api := h.api
  commitmentId := h.commitmentId
  latestCommitmentId := h.latestCommitmentId
  consumed := by simp [Arrival.spent?, h.consumed, hverify]
  created := by simpa [List.filterMap_cons, Arrival.created?] using h.created

theorem Collected.concat_created {codec : Codec} {ctx : BatchContext} {marker : BatchMarker}
    {body : List Arrival} {batch : LedgerUpdate} (h : Collected codec ctx marker body batch)
    (now : BatchContext) {raw : RawOutput} {output : VerifiedOutput}
    (hverify : verifyUnspent codec batch.api batch.latestCommitmentId raw = .ok output) :
    Collected codec ctx marker (body ++ [⟨now, .created raw⟩])
      { batch with created := batch.created ++ [output] } where
  api := h.api
  commitmentId := h.commitmentId
  latestCommitmentId := h.latestCommitmentId
  consumed := by simpa [List.filterMap_cons, Arrival.spent?] using h.consumed
  created := by simp [Arrival.created?, h.created, hverify]

theorem HasBatch.concat_consumed {codec : Codec} {past : List Arrival} {batch : LedgerUpdate}
    (h : HasBatch codec past batch) (ctx : BatchContext) {spent : RawSpent}
    {output : VerifiedOutput}
    (hverify : verifySpent codec batch.api batch.latestCommitmentId spent = .ok output) :
    HasBatch codec (past ++ [⟨ctx, .consumed spent⟩])
      { batch with consumed := batch.consumed ++ [output] } := by
  obtain ⟨opener, marker, body, hopen, hcollected⟩ := h
  exact ⟨opener, marker, body ++ [⟨ctx, .consumed spent⟩], hopen.concat rfl,
    hcollected.concat_consumed ctx hverify⟩

theorem HasBatch.concat_created {codec : Codec} {past : List Arrival} {batch : LedgerUpdate}
    (h : HasBatch codec past batch) (ctx : BatchContext) {raw : RawOutput} {output : VerifiedOutput}
    (hverify : verifyUnspent codec batch.api batch.latestCommitmentId raw = .ok output) :
    HasBatch codec (past ++ [⟨ctx, .created raw⟩])
      { batch with created := batch.created ++ [output] } := by
  obtain ⟨opener, marker, body, hopen, hcollected⟩ := h
  exact ⟨opener, marker, body ++ [⟨ctx, .created raw⟩], hopen.concat rfl,
    hcollected.concat_created ctx hverify⟩

end LedgerWatch
