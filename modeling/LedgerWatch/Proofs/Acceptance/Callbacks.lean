import LedgerWatch.Acceptance
import Mathlib.Data.List.Nodup
import Mathlib.Logic.Relation

/-!
# Every callback has one fate

Callers register callbacks for blocks and withdraw them, queries are answered late and in any way,
and the stream delivers blocks, all in any order. A callback that was accepted is pending, or it was
run once, or it was withdrawn and is never run. The books below record what became of every
callback, and they balance: the callbacks accepted are those pending, those run and those withdrawn,
each listed once and under its block.

## Main definitions

- `CallbackHistory`: those who wait, and what became of every callback so far
- `CallbackHistory.Step`, `CallbackHistory.Leads`, `CallbackHistory.Reachable`: the steps, in any
  order
- `CallbackHistory.Balanced`: the books balance
- `CallbackHistory.Fate`, `CallbackHistory.Accounted`: what this means for callers

## Main results

- `CallbackHistory.Balanced.step`: every step keeps the books balanced
- `CallbackHistory.Reachable.accounted`: what holds after all steps, in any order

## Design notes

Callbacks are named by numbers in the order in which their registrations were tried. A query may be
answered with the metadata of another block, and the callback for that block is then run.
-/

namespace LedgerWatch

/-- The block of the metadata and the callback that was run on it. -/
def Invocation.entry {β : Type} (invocation : Invocation β) : BlockId × β :=
  (invocation.metadata.blockId, invocation.callback)

namespace Acceptance

variable {β : Type}

/-- The answer to a query runs the callback of the block that it says is accepted, or nothing. -/
theorem answerCallback_cases (answer : Except RpcStatus BlockMetadata) (a : Acceptance β) :
    ((a.answerCallback answer).1 = a ∧ (a.answerCallback answer).2.1 = none) ∨
      ∃ metadata, (a.answerCallback answer).1 = (a.runCallback metadata).1 ∧
        (a.answerCallback answer).2.1 = (a.runCallback metadata).2 := by
  unfold answerCallback
  split
  · exact .inl ⟨rfl, rfl⟩
  · exact .inl ⟨rfl, rfl⟩
  · split
    · exact .inr ⟨_, rfl, rfl⟩
    · exact .inl ⟨rfl, rfl⟩

/-- Running a callback takes it out of the table. -/
theorem runCallback_perm {a : Acceptance β} (hkeys : (a.callbacks.map Prod.fst).Nodup)
    (metadata : BlockMetadata) :
    ((a.runCallback metadata).1.callbacks ++
      (a.runCallback metadata).2.toList.map Invocation.entry).Perm a.callbacks := by
  have hentries : (a.runCallback metadata).2.toList.map Invocation.entry =
      ((a.callbacks.lookup metadata.blockId).map (metadata.blockId, ·)).toList := by
    cases hlookup : a.callbacks.lookup metadata.blockId <;>
      simp [runCallback, hlookup, Invocation.entry]
  rw [hentries]
  exact Table.erase_append_perm hkeys metadata.blockId

end Acceptance

/-- Those who wait, and what became of every callback so far, newest first. -/
structure CallbackHistory where
  waiting : Acceptance Nat
  /-- The number of registrations that were tried. -/
  tried : Nat
  /-- The registrations whose queries are not answered yet. -/
  asking : List Nat
  accepted : List (BlockId × Nat)
  refused : List (Nat × Fault)
  invoked : List (Invocation Nat)
  withdrawn : List (BlockId × Nat)

namespace CallbackHistory

def empty : CallbackHistory where
  waiting := .empty
  tried := 0
  asking := []
  accepted := []
  refused := []
  invoked := []
  withdrawn := []

/-- A registration is tried, and its callback entered. -/
def register (block : BlockId) (w : CallbackHistory) : CallbackHistory :=
  match w.waiting.enterCallback block w.tried with
  | (waiting, .ok ()) =>
    { w with
      waiting
      tried := w.tried + 1
      asking := w.tried :: w.asking
      accepted := (block, w.tried) :: w.accepted }
  | (waiting, .error fault) =>
    { w with
      waiting
      tried := w.tried + 1
      refused := (w.tried, fault) :: w.refused }

/-- The query of a registration is answered. -/
def answer (number : Nat) (answer : Except RpcStatus BlockMetadata) (w : CallbackHistory) :
    CallbackHistory :=
  { w with
    waiting := (w.waiting.answerCallback answer).1
    asking := w.asking.erase number
    invoked := (w.waiting.answerCallback answer).2.1.toList ++ w.invoked }

def deliver (metadata : BlockMetadata) (w : CallbackHistory) : CallbackHistory :=
  { w with
    waiting := (w.waiting.deliver metadata).1
    invoked := (w.waiting.deliver metadata).2.toList ++ w.invoked }

def withdraw (block : BlockId) (w : CallbackHistory) : CallbackHistory :=
  { w with
    waiting := (w.waiting.withdraw block).1
    withdrawn := ((w.waiting.callbacks.lookup block).map (block, ·)).toList ++ w.withdrawn }

def clear (w : CallbackHistory) : CallbackHistory :=
  { w with
    waiting := w.waiting.clear
    withdrawn := w.waiting.callbacks ++ w.withdrawn }

/-- The steps. Queries are answered in any way, and listeners come, go and are signalled. -/
inductive Step (w : CallbackHistory) : CallbackHistory → Prop
  | register (block : BlockId) : Step w (w.register block)
  | answer {number : Nat} (hasking : number ∈ w.asking)
      (answer : Except RpcStatus BlockMetadata) : Step w (w.answer number answer)
  | deliver (metadata : BlockMetadata) : Step w (w.deliver metadata)
  | withdraw (block : BlockId) : Step w (w.withdraw block)
  | clear : Step w w.clear
  | listeners {waiting : Acceptance Nat} (hsame : waiting.callbacks = w.waiting.callbacks) :
      Step w { w with waiting }

/-- Steps lead from one history to the other. -/
def Leads : CallbackHistory → CallbackHistory → Prop :=
  Relation.ReflTransGen Step

def Reachable (w : CallbackHistory) : Prop :=
  empty.Leads w

/-- A callback for the block is pending. -/
def PendingFor (block : BlockId) (w : CallbackHistory) : Prop :=
  ∃ number, (block, number) ∈ w.waiting.callbacks

/-- What may have become of a callback that was accepted. -/
inductive Fate where
  | pending
  | invoked
  | withdrawn
  deriving DecidableEq

/-- The callbacks of a fate. One that was run is listed as often as it was run. -/
def under (w : CallbackHistory) : Fate → List Nat
  | .pending => w.waiting.callbacks.map Prod.snd
  | .invoked => w.invoked.map (·.callback)
  | .withdrawn => w.withdrawn.map Prod.snd

def runs (number : Nat) (w : CallbackHistory) : Nat :=
  (w.under .invoked).count number

/-! ## The books -/

/-- The callbacks accepted are those pending, run and withdrawn. Their numbers are all different,
and those of the callbacks refused are not among them. -/
structure Balanced (w : CallbackHistory) : Prop where
  accounts :
    (w.waiting.callbacks ++ (w.invoked.map Invocation.entry ++ w.withdrawn)).Perm w.accepted
  numbers : (w.accepted.map Prod.snd).Nodup
  accepted_lt : ∀ number ∈ w.accepted.map Prod.snd, number < w.tried
  refused_lt : ∀ entry ∈ w.refused, entry.1 < w.tried ∧ entry.1 ∉ w.accepted.map Prod.snd
  keys : (w.waiting.callbacks.map Prod.fst).Nodup

variable {w w' : CallbackHistory}

theorem balanced_empty : empty.Balanced := by
  constructor <;> simp [empty, Acceptance.empty]

theorem Balanced.tried_notMem (h : w.Balanced) : w.tried ∉ w.accepted.map Prod.snd :=
  fun hmem => Nat.lt_irrefl _ (h.accepted_lt _ hmem)

theorem Balanced.lookup_eq_none_iff (h : w.Balanced) {block : BlockId} :
    w.waiting.callbacks.lookup block = none ↔ ¬w.PendingFor block := by
  simp only [PendingFor, Table.mem_iff_lookup h.keys, Option.eq_none_iff_forall_ne_some, not_exists,
    ne_eq]

theorem register_of_pending {block : BlockId} {number : Nat}
    (h : w.waiting.callbacks.lookup block = some number) :
    w.register block =
      { w with
        tried := w.tried + 1
        refused := (w.tried, .alreadyRegistered block) :: w.refused } := by
  simp [register, Acceptance.enterCallback, h]

theorem register_of_free {block : BlockId} (h : w.waiting.callbacks.lookup block = none) :
    w.register block =
      { w with
        waiting := { w.waiting with callbacks := (block, w.tried) :: w.waiting.callbacks }
        tried := w.tried + 1
        asking := w.tried :: w.asking
        accepted := (block, w.tried) :: w.accepted } := by
  simp [register, Acceptance.enterCallback, h, Table.put_of_lookup_eq_none h]

theorem Balanced.register (h : w.Balanced) (block : BlockId) : (w.register block).Balanced := by
  cases hlookup : w.waiting.callbacks.lookup block with
  | some number =>
    rw [register_of_pending hlookup]
    refine { h with accepted_lt := fun number hmem => ?_, refused_lt := fun entry hmem => ?_ }
    · exact Nat.lt_succ_of_lt (h.accepted_lt number hmem)
    · rcases List.mem_cons.mp hmem with rfl | hold
      · exact ⟨Nat.lt_succ_self _, h.tried_notMem⟩
      · exact (h.refused_lt entry hold).imp_left Nat.lt_succ_of_lt
  | none =>
    rw [register_of_free hlookup]
    constructor
    · exact h.accounts.cons (block, w.tried)
    · exact List.nodup_cons.mpr ⟨h.tried_notMem, h.numbers⟩
    · intro number hmem
      rcases List.mem_cons.mp hmem with rfl | hold
      · exact Nat.lt_succ_self _
      · exact Nat.lt_succ_of_lt (h.accepted_lt number hold)
    · intro entry hmem
      obtain ⟨hlt, hold⟩ := h.refused_lt entry hmem
      refine ⟨Nat.lt_succ_of_lt hlt, fun hnew => ?_⟩
      rcases List.mem_cons.mp hnew with heq | hmem
      · exact Nat.ne_of_lt hlt heq
      · exact hold hmem
    · refine List.nodup_cons.mpr ⟨fun hmem => ?_, h.keys⟩
      obtain ⟨⟨key, number⟩, hentry, rfl⟩ := List.mem_map.mp hmem
      exact h.lookup_eq_none_iff.mp hlookup ⟨number, hentry⟩

/-- Callbacks leave the table, and the books say where they go. -/
theorem Balanced.take (h : w.Balanced) {waiting : Acceptance Nat} (asking : List Nat)
    (ran : List (Invocation Nat)) (gone : List (BlockId × Nat))
    (hperm : (waiting.callbacks ++ (ran.map Invocation.entry ++ gone)).Perm w.waiting.callbacks) :
    { w with
      waiting, asking
      invoked := ran ++ w.invoked
      withdrawn := gone ++ w.withdrawn }.Balanced where
  accounts := by
    refine List.Perm.trans ?_ h.accounts
    -- entry by entry, what the table loses is what the books gain
    refine List.perm_iff_count.mpr fun entry => ?_
    have hcount := hperm.count_eq entry
    simp only [List.count_append, List.map_append] at hcount ⊢
    omega
  numbers := h.numbers
  accepted_lt := h.accepted_lt
  refused_lt := h.refused_lt
  keys := by
    have hkeys := (hperm.map Prod.fst).nodup_iff.mpr h.keys
    rw [List.map_append] at hkeys
    exact (List.nodup_append.mp hkeys).1

theorem Balanced.run (h : w.Balanced) (asking : List Nat) (metadata : BlockMetadata)
    {waiting : Acceptance Nat}
    (hwaiting : waiting.callbacks = (w.waiting.runCallback metadata).1.callbacks) :
    { w with
      waiting, asking
      invoked := (w.waiting.runCallback metadata).2.toList ++ w.invoked }.Balanced := by
  refine h.take asking _ [] ?_
  rw [List.append_nil, hwaiting]
  exact Acceptance.runCallback_perm h.keys metadata

theorem Balanced.answer (h : w.Balanced) (number : Nat) (answer : Except RpcStatus BlockMetadata) :
    (w.answer number answer).Balanced := by
  unfold CallbackHistory.answer
  rcases w.waiting.answerCallback_cases answer with ⟨hsame, hnone⟩ | ⟨metadata, hrun, hinvocation⟩
  · rw [hsame, hnone]
    exact { h with }
  · rw [hrun, hinvocation]
    exact h.run _ metadata rfl

theorem Balanced.deliver (h : w.Balanced) (metadata : BlockMetadata) :
    (w.deliver metadata).Balanced :=
  h.run w.asking metadata rfl

theorem Balanced.withdraw (h : w.Balanced) (block : BlockId) : (w.withdraw block).Balanced :=
  h.take w.asking [] _ (Table.erase_append_perm h.keys block)

theorem Balanced.clear (h : w.Balanced) : w.clear.Balanced :=
  h.take w.asking [] _ (.refl _)

theorem Balanced.step (h : w.Balanced) (hstep : Step w w') : w'.Balanced := by
  cases hstep with
  | register block => exact h.register block
  | answer _ answer => exact h.answer _ answer
  | deliver metadata => exact h.deliver metadata
  | withdraw block => exact h.withdraw block
  | clear => exact h.clear
  | listeners hsame =>
    refine { h with accounts := ?_, keys := ?_ }
    · rw [hsame]
      exact h.accounts
    · rw [hsame]
      exact h.keys

theorem Leads.balanced (h : w.Balanced) (hleads : w.Leads w') : w'.Balanced := by
  induction hleads with
  | refl => exact h
  | tail _ hstep ih => exact ih.step hstep

/-! ## What is never undone -/

/-- What was written down stays there. -/
structure Extends (w w' : CallbackHistory) : Prop where
  accepted : w.accepted ⊆ w'.accepted
  refused : w.refused ⊆ w'.refused
  invoked : w.invoked ⊆ w'.invoked
  withdrawn : w.withdrawn ⊆ w'.withdrawn

theorem Extends.refl (w : CallbackHistory) : w.Extends w :=
  ⟨List.Subset.refl _, List.Subset.refl _, List.Subset.refl _, List.Subset.refl _⟩

theorem Step.extends (hstep : Step w w') : w.Extends w' := by
  cases hstep with
  | register block =>
    unfold CallbackHistory.register
    split
    · exact { Extends.refl w with accepted := List.subset_cons_self .. }
    · exact { Extends.refl w with refused := List.subset_cons_self .. }
  | answer _ answer => exact { Extends.refl w with invoked := List.subset_append_right .. }
  | deliver metadata => exact { Extends.refl w with invoked := List.subset_append_right .. }
  | withdraw block => exact { Extends.refl w with withdrawn := List.subset_append_right .. }
  | clear => exact { Extends.refl w with withdrawn := List.subset_append_right .. }
  | listeners _ => exact { Extends.refl w with }

theorem Leads.extends (hleads : w.Leads w') : w.Extends w' := by
  induction hleads with
  | refl => exact .refl w
  | tail _ hstep ih =>
    have hlast := hstep.extends
    constructor
    · exact List.Subset.trans ih.accepted hlast.accepted
    · exact List.Subset.trans ih.refused hlast.refused
    · exact List.Subset.trans ih.invoked hlast.invoked
    · exact List.Subset.trans ih.withdrawn hlast.withdrawn

theorem Leads.mem_under (hleads : w.Leads w') {number : Nat} {fate : Fate}
    (hfate : fate ≠ .pending) (hmem : number ∈ w.under fate) : number ∈ w'.under fate := by
  cases fate with
  | pending => exact absurd rfl hfate
  | invoked => exact List.map_subset _ hleads.extends.invoked hmem
  | withdrawn => exact List.map_subset _ hleads.extends.withdrawn hmem

/-! ## One fate for each callback -/

theorem Balanced.under_perm (h : w.Balanced) :
    (w.under .pending ++ (w.under .invoked ++ w.under .withdrawn)).Perm
      (w.accepted.map Prod.snd) := by
  have hperm := h.accounts.map Prod.snd
  rwa [List.map_append, List.map_append, List.map_map] at hperm

/-- How often a callback is listed under its fates is how often it was accepted. -/
theorem Balanced.count_under (h : w.Balanced) (number : Nat) :
    (w.under .pending).count number + w.runs number + (w.under .withdrawn).count number =
      (w.accepted.map Prod.snd).count number := by
  rw [← h.under_perm.count_eq number, List.count_append, List.count_append, Nat.add_assoc]
  rfl

theorem Balanced.count_accepted_le (h : w.Balanced) (number : Nat) :
    (w.accepted.map Prod.snd).count number ≤ 1 :=
  List.nodup_iff_count_le_one.mp h.numbers number

/-- A callback that is withdrawn is not run, whatever comes later. -/
theorem Leads.runs_of_withdrawn (h : w.Balanced) (hleads : w.Leads w') {number : Nat}
    (hmem : number ∈ w.under .withdrawn) : w'.runs number = 0 := by
  have hlater := hleads.balanced h
  have hwithdrawn := List.count_pos_iff.mpr (hleads.mem_under (by decide) hmem)
  have hcount := hlater.count_under number
  have hle := hlater.count_accepted_le number
  omega

/-- Nor is one that was refused. -/
theorem Leads.runs_of_refused (h : w.Balanced) (hleads : w.Leads w') {entry : Nat × Fault}
    (hmem : entry ∈ w.refused) : w'.runs entry.1 = 0 := by
  have hlater := hleads.balanced h
  have hnot := (hlater.refused_lt entry (hleads.extends.refused hmem)).2
  have hzero := List.count_eq_zero.mpr hnot
  have hcount := hlater.count_under entry.1
  omega

theorem Balanced.runs_le (h : w.Balanced) (number : Nat) : w.runs number ≤ 1 := by
  have hcount := h.count_under number
  have hle := h.count_accepted_le number
  omega

theorem Balanced.exists_fate (h : w.Balanced) {number : Nat}
    (hmem : number ∈ w.accepted.map Prod.snd) : ∃! fate, number ∈ w.under fate := by
  have hexists : ∃ fate, number ∈ w.under fate := by
    rcases List.mem_append.mp (h.under_perm.mem_iff.mpr hmem) with hpending | hrest
    · exact ⟨.pending, hpending⟩
    · rcases List.mem_append.mp hrest with hinvoked | hwithdrawn
      · exact ⟨.invoked, hinvoked⟩
      · exact ⟨.withdrawn, hwithdrawn⟩
  obtain ⟨fate, hfate⟩ := hexists
  refine ⟨fate, hfate, fun other hother => ?_⟩
  -- under two fates it would be counted twice
  have hcount := h.count_under number
  have hle := h.count_accepted_le number
  have hone := List.count_pos_iff.mpr hfate
  have hother := List.count_pos_iff.mpr hother
  rw [runs] at hcount
  cases fate <;> cases other <;> first | rfl | omega

/-- The callbacks pending are counted by looking at those accepted. -/
theorem Balanced.pending_eq (h : w.Balanced) :
    w.waiting.pending =
      ((w.accepted.map Prod.snd).filter (· ∈ w.under .pending)).length := by
  have hnodup := h.under_perm.nodup_iff.mpr h.numbers
  have hrest : (w.under .invoked ++ w.under .withdrawn).filter (· ∈ w.under .pending) = [] := by
    refine List.filter_eq_nil_iff.mpr fun number hmem hpending => ?_
    exact (List.nodup_append.mp hnodup).2.2 number (of_decide_eq_true hpending) number hmem rfl
  calc w.waiting.pending
      = (w.under .pending).length := (List.length_map _).symm
    _ = ((w.under .pending ++ (w.under .invoked ++ w.under .withdrawn)).filter
          (· ∈ w.under .pending)).length := by
        rw [List.filter_append, hrest, List.append_nil,
          List.filter_eq_self.mpr fun number hmem => decide_eq_true hmem]
    _ = ((w.accepted.map Prod.snd).filter (· ∈ w.under .pending)).length :=
        (h.under_perm.filter _).length_eq

/-- A callback was accepted for one block. -/
theorem Balanced.block_unique (h : w.Balanced) {block block' : BlockId} {number : Nat}
    (hmem : (block, number) ∈ w.accepted) (hmem' : (block', number) ∈ w.accepted) :
    block = block' :=
  congrArg Prod.fst (List.inj_on_of_nodup_map h.numbers hmem hmem' rfl)

theorem Balanced.pending_subset (h : w.Balanced) : w.waiting.callbacks ⊆ w.accepted :=
  fun _ hmem => h.accounts.subset (List.mem_append_left _ hmem)

theorem Balanced.entry_mem (h : w.Balanced) {invocation : Invocation Nat}
    (hmem : invocation ∈ w.invoked) : invocation.entry ∈ w.accepted :=
  h.accounts.subset (List.mem_append_right _ (List.mem_append_left _ (List.mem_map_of_mem hmem)))

theorem mem_refused_register_iff (h : w.Balanced) {block : BlockId} :
    (w.tried, .alreadyRegistered block) ∈ (w.register block).refused ↔ w.PendingFor block := by
  cases hlookup : w.waiting.callbacks.lookup block with
  | some number =>
    rw [register_of_pending hlookup]
    exact iff_of_true List.mem_cons_self ⟨number, (Table.mem_iff_lookup h.keys).mpr hlookup⟩
  | none =>
    rw [register_of_free hlookup]
    refine iff_of_false (fun hmem => ?_) (h.lookup_eq_none_iff.mp hlookup)
    exact Nat.lt_irrefl _ (h.refused_lt _ hmem).1

theorem mem_accepted_register_iff (h : w.Balanced) {block : BlockId} :
    (block, w.tried) ∈ (w.register block).accepted ↔ ¬w.PendingFor block := by
  cases hlookup : w.waiting.callbacks.lookup block with
  | some number =>
    rw [register_of_pending hlookup]
    refine iff_of_false (fun hmem => ?_)
      (not_not_intro ⟨number, (Table.mem_iff_lookup h.keys).mpr hlookup⟩)
    exact h.tried_notMem (List.mem_map_of_mem hmem)
  | none =>
    rw [register_of_free hlookup]
    exact iff_of_true List.mem_cons_self (h.lookup_eq_none_iff.mp hlookup)

theorem waiting_register_of_pending (h : w.Balanced) {block : BlockId}
    (hpending : w.PendingFor block) : (w.register block).waiting = w.waiting := by
  obtain ⟨number, hmem⟩ := hpending
  rw [register_of_pending ((Table.mem_iff_lookup h.keys).mp hmem)]

theorem withdraw_iff (h : w.Balanced) {block : BlockId} :
    (w.waiting.withdraw block).2 = true ↔ w.PendingFor block := by
  rw [Acceptance.withdraw, Option.isSome_iff_ne_none, ne_eq, h.lookup_eq_none_iff, not_not]

/-- A delivery runs the callback that is pending for the block. -/
theorem mem_invoked_deliver (h : w.Balanced) {metadata : BlockMetadata} {number : Nat}
    (hmem : (metadata.blockId, number) ∈ w.waiting.callbacks) :
    ⟨number, metadata⟩ ∈ (w.deliver metadata).invoked := by
  have hlookup := (Table.mem_iff_lookup h.keys).mp hmem
  simp [deliver, Acceptance.deliver, Acceptance.runCallback, hlookup]

/-- Withdrawing a block takes its callback along. -/
theorem mem_under_withdraw (h : w.Balanced) {block : BlockId} {number : Nat}
    (hmem : (block, number) ∈ w.waiting.callbacks) :
    number ∈ (w.withdraw block).under .withdrawn := by
  have hlookup := (Table.mem_iff_lookup h.keys).mp hmem
  simp [under, withdraw, hlookup]

theorem mem_under_clear {number : Nat} (hmem : number ∈ w.under .pending) :
    number ∈ w.clear.under .withdrawn :=
  List.map_subset _ (List.subset_append_left ..) hmem

/-! ## What callers may rely on -/

/-- What became of the callbacks so far, and what cannot become of them any more. -/
structure Accounted (w : CallbackHistory) : Prop where
  /-- A registration is refused exactly if a callback for its block is pending, and accepted
  otherwise. -/
  refused_iff : ∀ block,
    (w.tried, .alreadyRegistered block) ∈ (w.register block).refused ↔ w.PendingFor block
  accepted_iff : ∀ block, (block, w.tried) ∈ (w.register block).accepted ↔ ¬w.PendingFor block
  /-- One that is refused leaves the pending callback in place and is never run itself. -/
  refused_keeps : ∀ block, w.PendingFor block → (w.register block).waiting = w.waiting
  refused_runs : ∀ entry ∈ w.refused, ∀ later, w.Leads later → later.runs entry.1 = 0
  accepted_lasts : ∀ later, w.Leads later → w.accepted ⊆ later.accepted
  /-- A callback that was accepted is pending, or was run once, or was withdrawn. -/
  one_fate : ∀ entry ∈ w.accepted, w.runs entry.2 ≤ 1 ∧ ∃! fate, entry.2 ∈ w.under fate
  /-- Once it is not pending any more, its fate is sealed. -/
  fate_lasts : ∀ number fate, fate ≠ .pending → number ∈ w.under fate →
    ∀ later, w.Leads later → number ∈ later.under fate
  /-- At most one callback is pending for a block. -/
  one_pending : (w.waiting.callbacks.map Prod.fst).Nodup
  pending_accepted : w.waiting.callbacks ⊆ w.accepted
  pending_eq : w.waiting.pending =
    ((w.accepted.map Prod.snd).filter (· ∈ w.under .pending)).length
  /-- A callback is run on metadata of the block that it was accepted for. -/
  invoked_block : ∀ invocation ∈ w.invoked, ∀ block,
    (block, invocation.callback) ∈ w.accepted ↔ block = invocation.metadata.blockId
  /-- One that is pending is run when its block is delivered. -/
  deliver_runs : ∀ metadata number, (metadata.blockId, number) ∈ w.waiting.callbacks →
    ⟨number, metadata⟩ ∈ (w.deliver metadata).invoked
  /-- A callback that is withdrawn or cleared while it is pending is never run. -/
  withdraw_iff : ∀ block, (w.waiting.withdraw block).2 = true ↔ w.PendingFor block
  withdraw_runs : ∀ block number, (block, number) ∈ w.waiting.callbacks →
    ∀ later, (w.withdraw block).Leads later → later.runs number = 0
  clear_runs : ∀ number ∈ w.under .pending, ∀ later, w.clear.Leads later → later.runs number = 0

/-- Every callback is accounted for, in whatever order the steps come. -/
theorem Reachable.accounted (h : w.Reachable) : w.Accounted := by
  have hbalanced : w.Balanced := Leads.balanced balanced_empty h
  constructor
  · exact fun block => mem_refused_register_iff hbalanced
  · exact fun block => mem_accepted_register_iff hbalanced
  · exact fun block hpending => waiting_register_of_pending hbalanced hpending
  · exact fun entry hmem later hleads => hleads.runs_of_refused hbalanced hmem
  · exact fun later hleads => hleads.extends.accepted
  · intro entry hmem
    exact ⟨hbalanced.runs_le _, hbalanced.exists_fate (List.mem_map_of_mem hmem)⟩
  · exact fun number fate hfate hmem later hleads => hleads.mem_under hfate hmem
  · exact hbalanced.keys
  · exact hbalanced.pending_subset
  · exact hbalanced.pending_eq
  · intro invocation hmem block
    have hentry := hbalanced.entry_mem hmem
    constructor
    · exact fun hblock => hbalanced.block_unique hblock hentry
    · rintro rfl
      exact hentry
  · exact fun metadata number hmem => mem_invoked_deliver hbalanced hmem
  · exact fun block => withdraw_iff hbalanced
  · intro block number hmem later hleads
    exact hleads.runs_of_withdrawn (hbalanced.withdraw block) (mem_under_withdraw hbalanced hmem)
  · intro number hmem later hleads
    exact hleads.runs_of_withdrawn hbalanced.clear (mem_under_clear hmem)

/-- A callback is pending, and a second one for its block was refused. -/
def twiceRegistered : CallbackHistory :=
  (empty.register .empty).register .empty

/-- The first callback is withdrawn and a third one is entered before the query of the first is
answered: the block is accepted. -/
def lateAnswer : CallbackHistory :=
  ((twiceRegistered.withdraw .empty).register .empty).answer 0
    (.ok { blockId := .empty, state := .accepted })

theorem accounted_lateAnswer :
    twiceRegistered.Reachable ∧ (.empty, 0) ∈ twiceRegistered.waiting.callbacks ∧
      (1, .alreadyRegistered .empty) ∈ twiceRegistered.refused ∧
      (twiceRegistered.withdraw .empty).Leads lateAnswer ∧
      lateAnswer.runs 0 = 0 ∧ lateAnswer.runs 1 = 0 ∧ lateAnswer.runs 2 = 1 := by
  have hreachable : twiceRegistered.Reachable :=
    (Relation.ReflTransGen.single (.register .empty)).tail (.register .empty)
  have hpending : (.empty, 0) ∈ twiceRegistered.waiting.callbacks := by decide
  have hrefused : (1, .alreadyRegistered .empty) ∈ twiceRegistered.refused := List.mem_cons_self
  have hlate : (twiceRegistered.withdraw .empty).Leads lateAnswer :=
    (Relation.ReflTransGen.single (.register .empty)).tail (.answer (by decide) _)
  have hfirst := hreachable.accounted.withdraw_runs .empty 0 hpending lateAnswer hlate
  have hsecond := hreachable.accounted.refused_runs _ hrefused lateAnswer
    (.head (.withdraw .empty) hlate)
  exact ⟨hreachable, hpending, hrefused, hlate, hfirst, hsecond, by decide⟩

end CallbackHistory

end LedgerWatch
