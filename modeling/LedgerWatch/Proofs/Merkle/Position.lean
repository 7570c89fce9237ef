import Mathlib.Algebra.Group.Nat.Defs
import LedgerWatch.Proofs.Merkle

/-!
# The position that a path proves

The sides of the siblings along a path tell the way down from the root to the leaf, and so the
position of the leaf. Read as binary digits they are the index of the leaf. Every path spells one
index, and the path of a leaf spells the index of the leaf.

## Main definitions

- `Merkle.Spells`: the sides along a path are the binary digits of an index
- `Merkle.position`: the index that a path spells

## Main results

- `Merkle.spells_iff`: a path spells its position and nothing else
- `Merkle.spells_of_path?`: the path of a leaf spells the index of the leaf
-/

namespace LedgerWatch.Merkle

variable {α : Type}

/-- Bit for bit, lowest first, an index has a one where the sibling is to the left. It has no bits
beyond the path. -/
structure Spells (path : List (Step α)) (index : Nat) : Prop where
  bound : index < 2 ^ path.length
  bits : ∀ k (h : k < path.length), path[k].side = .left ↔ index.testBit k

/-- The index of the leaf at which a path starts. -/
def position : List (Step α) → Nat
  | [] => 0
  | step :: above => 2 * position above + if step.side = .left then 1 else 0

theorem spells_nil_iff {index : Nat} : Spells ([] : List (Step α)) index ↔ index = 0 := by
  constructor
  · intro h
    simpa using h.bound
  · rintro rfl
    exact ⟨by simp, by simp⟩

/-- The first step decides the lowest bit, and the steps above spell the others. -/
theorem spells_cons_iff {step : Step α} {above : List (Step α)} {index : Nat} :
    Spells (step :: above) index ↔
      (step.side = .left ↔ index % 2 = 1) ∧ Spells above (index / 2) := by
  have hlength : 2 ^ (step :: above).length = 2 * 2 ^ above.length := Nat.pow_succ'
  constructor
  · intro h
    have hbound := h.bound
    have hlowest : step.side = .left ↔ index.testBit 0 = true := h.bits 0 (Nat.succ_pos _)
    rw [Nat.testBit_zero, decide_eq_true_iff] at hlowest
    refine ⟨hlowest, by omega, ?_⟩
    intro k hk
    rw [← Nat.testBit_succ]
    exact h.bits (k + 1) (Nat.succ_lt_succ hk)
  · rintro ⟨hlowest, habove⟩
    have hbound := habove.bound
    refine ⟨by omega, ?_⟩
    intro k hk
    cases k with
    | zero =>
      rw [Nat.testBit_zero, decide_eq_true_iff]
      exact hlowest
    | succ k =>
      rw [Nat.testBit_succ]
      exact habove.bits k (Nat.lt_of_succ_lt_succ hk)

/-- A path spells its position and no other index. -/
theorem spells_iff {path : List (Step α)} {index : Nat} :
    Spells path index ↔ index = position path := by
  induction path generalizing index with
  | nil => exact spells_nil_iff
  | cons step above ih =>
    rw [spells_cons_iff, ih, position]
    split <;> simp_all <;> omega

/-- What a path spells is told by its sides alone. -/
theorem position_eq_of_sides {path path' : List (Step α)}
    (h : path.map Step.side = path'.map Step.side) : position path = position path' := by
  induction path generalizing path' with
  | nil =>
    obtain rfl : path' = [] := by simpa using h.symm
    rfl
  | cons step above ih =>
    cases path' with
    | nil => simp at h
    | cons step' above' =>
      obtain ⟨hside, habove⟩ : step.side = step'.side ∧
          above.map Step.side = above'.map Step.side := by simpa using h
      rw [position, position, hside, ih habove]

/-- The sibling of a node is to the left exactly if the index of the node is odd. -/
theorem side_of_siblingStep? {level : List α} {i : Nat} {step : Step α}
    (hstep : siblingStep? level i = some step) : step.side = .left ↔ i % 2 = 1 := by
  simp only [siblingStep?, Option.bind_eq_some_iff] at hstep
  obtain ⟨node, -, hsibling⟩ := hstep
  split at hsibling
  next heven =>
    obtain rfl := Option.some.inj hsibling
    simp [heven]
  next hodd =>
    obtain ⟨sibling, -, rfl⟩ := Option.map_eq_some_iff.mp hsibling
    simp
    omega

theorem spells_of_path? (combine : α → α → α) {leaves : List α} {i : Nat} {path : List (Step α)}
    (hpath : path? combine leaves i = some path) : Spells path i := by
  induction leaves using root?.induct combine generalizing i path with
  | case1 => simp [path?] at hpath
  | case2 x =>
    obtain ⟨hzero, rfl⟩ : i = 0 ∧ [] = path := by simpa [path?] using hpath
    exact spells_nil_iff.mpr hzero
  | case3 x y rest ih =>
    have htwo : 1 < (x :: y :: rest).length := by simp
    obtain ⟨step, above, hstep, habove, rfl⟩ := (path?_eq_some_iff combine htwo i path).mp hpath
    exact spells_cons_iff.mpr ⟨side_of_siblingStep? hstep, ih habove⟩

end LedgerWatch.Merkle
