import Mathlib.Algebra.Group.Nat.Defs
import Mathlib.Data.List.Basic
import Mathlib.Data.Nat.Log
import LedgerWatch.Merkle

/-!
# Audit paths lead to the root

The tree over a list of leaves is computed twice, once for the root and once for an audit path. The
two agree on trees of every shape: whatever the pair hash is, climbing the path of a leaf from that
leaf ends at the root.

## Main definitions

- `Merkle.levelAt`: the level at a height above the leaves

## Main results

- `Merkle.isSome_path?_iff`: exactly the leaves have a path
- `Merkle.length_path?`: a path has as many steps as the tree has levels above the leaves
- `Merkle.getElem?_path?`: each step of a path is the sibling at its height
- `Merkle.root?_eq_climb`: a path leads from its leaf to the root
-/

namespace LedgerWatch.Merkle

variable {α : Type}

/-- The level at a height above the leaves. -/
def levelAt (combine : α → α → α) (leaves : List α) : Nat → List α
  | 0 => leaves
  | height + 1 => levelAt combine (parents combine leaves) height

/-- A level above another pairs each node with its right neighbour, and a last node without one
with itself. -/
theorem getElem?_parents (combine : α → α → α) (level : List α) (i : Nat) :
    (parents combine level)[i]? =
      level[2 * i]?.map fun node => combine node (level.getD (2 * i + 1) node) := by
  fun_induction parents combine level generalizing i with
  | case1 => simp
  | case2 x => cases i <;> simp [Nat.mul_add]
  | case3 x y rest ih =>
    cases i with
    | zero => simp
    | succ i => simp [ih, Nat.mul_add]

/-- A node joined with its sibling is the node above both. -/
theorem getElem?_parents_of_siblingStep? (combine : α → α → α) {level : List α} {i : Nat}
    {node : α} {step : Step α} (hnode : level[i]? = some node)
    (hstep : siblingStep? level i = some step) :
    (parents combine level)[i / 2]? = some (step.join combine node) := by
  rw [getElem?_parents]
  simp only [siblingStep?, hnode, Option.bind_some] at hstep
  by_cases heven : i % 2 = 0
  · have hi : 2 * (i / 2) = i := by omega
    rw [if_pos heven, Option.some.injEq] at hstep
    subst hstep
    simp [hi, hnode, Step.join]
  · have hi : 2 * (i / 2) = i - 1 := by omega
    have hnext : i - 1 + 1 = i := by omega
    rw [if_neg heven, Option.map_eq_some_iff] at hstep
    obtain ⟨sibling, hsibling, rfl⟩ := hstep
    simp [hi, hnext, hsibling, hnode, Step.join]

/-- A node of a level has a sibling there. -/
theorem isSome_siblingStep?_iff (level : List α) (i : Nat) :
    (siblingStep? level i).isSome ↔ i < level.length := by
  simp only [siblingStep?]
  cases hnode : level[i]? with
  | none => simpa using hnode
  | some node =>
    obtain ⟨hi, -⟩ := List.getElem?_eq_some_iff.mp hnode
    have hbefore : i - 1 < level.length := by omega
    by_cases heven : i % 2 = 0
    · simp [heven, hi]
    · simp [heven, hi, hbefore]

/-- Two nodes or more have the root of the level above. -/
theorem root?_eq_root?_parents (combine : α → α → α) {level : List α} (h : 1 < level.length) :
    root? combine level = root? combine (parents combine level) := by
  match level, h with
  | x :: y :: rest, _ => rw [root?]

/-- On two nodes or more a path begins with the sibling and goes on a level above. -/
theorem path?_eq_some_iff (combine : α → α → α) {level : List α} (h : 1 < level.length) (i : Nat)
    (path : List (Step α)) :
    path? combine level i = some path ↔
      ∃ step above, siblingStep? level i = some step ∧
        path? combine (parents combine level) (i / 2) = some above ∧ path = step :: above := by
  match level, h with
  | x :: y :: rest, _ =>
    rw [path?]
    simp only [Option.bind_eq_bind, Option.bind_eq_some_iff, Option.some.injEq]
    constructor
    · rintro ⟨step, hstep, above, habove, rfl⟩
      exact ⟨step, above, hstep, habove, rfl⟩
    · rintro ⟨step, above, hstep, habove, rfl⟩
      exact ⟨step, hstep, above, habove, rfl⟩

/-- Exactly the leaves have a path: no access to a level fails on the way up. -/
theorem isSome_path?_iff (combine : α → α → α) (leaves : List α) (i : Nat) :
    (path? combine leaves i).isSome ↔ i < leaves.length := by
  induction leaves using root?.induct combine generalizing i with
  | case1 => simp [path?]
  | case2 x => by_cases hi : i = 0 <;> simp [path?, hi]
  | case3 x y rest ih =>
    have htwo : 1 < (x :: y :: rest).length := by simp
    simp only [Option.isSome_iff_exists, path?_eq_some_iff combine htwo]
    constructor
    · rintro ⟨path, step, above, hstep, -, -⟩
      exact (isSome_siblingStep?_iff _ i).mp (Option.isSome_of_eq_some hstep)
    · intro hi
      have habove : i / 2 < (parents combine (x :: y :: rest)).length := by
        rw [length_parents]
        omega
      obtain ⟨step, hstep⟩ := Option.isSome_iff_exists.mp ((isSome_siblingStep?_iff _ i).mpr hi)
      obtain ⟨above, habove⟩ := Option.isSome_iff_exists.mp ((ih (i / 2)).mpr habove)
      exact ⟨step :: above, step, above, hstep, habove, rfl⟩

/-- Every path climbs the whole tree, in which each level is half as long as the one below it,
rounded up. -/
theorem length_path? (combine : α → α → α) {leaves : List α} {i : Nat} {path : List (Step α)}
    (hpath : path? combine leaves i = some path) : path.length = Nat.clog 2 leaves.length := by
  induction leaves using root?.induct combine generalizing i path with
  | case1 => simp [path?] at hpath
  | case2 x =>
    obtain ⟨-, rfl⟩ : i = 0 ∧ [] = path := by simpa [path?] using hpath
    simp
  | case3 x y rest ih =>
    have htwo : 1 < (x :: y :: rest).length := by simp
    obtain ⟨step, above, -, habove, rfl⟩ := (path?_eq_some_iff combine htwo i path).mp hpath
    have hlength := ih habove
    rw [length_parents] at hlength
    rw [List.length_cons, hlength, Nat.clog_of_two_le (by decide) htwo]
    rfl

/-- Each step of a path is the sibling, at its height, of the node above the leaf. -/
theorem getElem?_path? (combine : α → α → α) {leaves : List α} {i : Nat} {path : List (Step α)}
    (hpath : path? combine leaves i = some path) {height : Nat} (h : height < path.length) :
    i / 2 ^ height < (levelAt combine leaves height).length ∧
      path[height]? = siblingStep? (levelAt combine leaves height) (i / 2 ^ height) := by
  induction leaves using root?.induct combine generalizing i path height with
  | case1 => simp [path?] at hpath
  | case2 x =>
    obtain ⟨-, rfl⟩ : i = 0 ∧ [] = path := by simpa [path?] using hpath
    simp at h
  | case3 x y rest ih =>
    have htwo : 1 < (x :: y :: rest).length := by simp
    obtain ⟨step, above, hstep, habove, rfl⟩ := (path?_eq_some_iff combine htwo i path).mp hpath
    cases height with
    | zero =>
      have hi := (isSome_siblingStep?_iff _ i).mp (Option.isSome_of_eq_some hstep)
      simpa [levelAt, hstep] using hi
    | succ height =>
      have hheight : height < above.length := by simpa using h
      have hhalf : i / 2 ^ (height + 1) = i / 2 / 2 ^ height := by
        rw [Nat.pow_succ', Nat.div_div_eq_div_mul]
      rw [hhalf]
      exact ih habove hheight

/-- Climbing the path of a leaf from that leaf ends at the root. -/
theorem root?_eq_climb (combine : α → α → α) {leaves : List α} {i : Nat} {leaf : α}
    {path : List (Step α)} (hpath : path? combine leaves i = some path)
    (hleaf : leaves[i]? = some leaf) : root? combine leaves = some (climb combine leaf path) := by
  -- the node that the climb has reached is always the one at the halved index of its level
  induction leaves using root?.induct combine generalizing i leaf path with
  | case1 => simp [path?] at hpath
  | case2 x =>
    obtain ⟨rfl, rfl⟩ : i = 0 ∧ [] = path := by simpa [path?] using hpath
    simpa [root?, climb] using hleaf
  | case3 x y rest ih =>
    have htwo : 1 < (x :: y :: rest).length := by simp
    obtain ⟨step, above, hstep, habove, rfl⟩ := (path?_eq_some_iff combine htwo i path).mp hpath
    have hparent := getElem?_parents_of_siblingStep? combine hleaf hstep
    rw [root?_eq_root?_parents combine htwo, ih habove hparent]
    rfl

end LedgerWatch.Merkle
