/-!
# Merkle trees and audit paths

A list of leaves is hashed in pairs until one node is left. A level of odd length pairs its last
node with itself. An audit path holds, level by level, the sibling of the node on the way from a
leaf to the root, so that the root can be computed from the leaf alone.

## Main definitions

- `Merkle.parents`: the level above a level
- `Merkle.root?`: the node left at the top, if there is a leaf
- `Merkle.Step`: a sibling and the side it is on
- `Merkle.path?`: the audit path of a leaf
- `Merkle.climb`: the root computed from a leaf and its path

## Design notes

The pair hash is a parameter `combine`, so that what holds of the shape of the tree can be told
apart from what holds of the hash.
-/

namespace LedgerWatch.Merkle

variable {α : Type}

/-- The level above a level. A last node without a partner is its own partner. -/
def parents (combine : α → α → α) : List α → List α
  | [] => []
  | [x] => [combine x x]
  | x :: y :: rest => combine x y :: parents combine rest

theorem length_parents (combine : α → α → α) (level : List α) :
    (parents combine level).length = (level.length + 1) / 2 := by
  fun_induction parents combine level with
  | case1 => simp
  | case2 x => simp
  | case3 x y rest ih => simp [ih]; omega

/-- The node at the top of the tree over a list of leaves, if there is a leaf. -/
def root? (combine : α → α → α) : List α → Option α
  | [] => none
  | [x] => some x
  | x :: y :: rest => root? combine (parents combine (x :: y :: rest))
  termination_by level => level.length
  decreasing_by
    rw [length_parents]
    simp only [List.length_cons]
    omega

/-- The side of a sibling. -/
inductive Side where
  | left
  | right
  deriving DecidableEq

/-- One step of an audit path: a sibling and the side it is on. -/
structure Step (α : Type) where
  sibling : α
  side : Side
  deriving DecidableEq

/-- The sibling of the node at an index of a level, if there is such a node. A node with an even
index has its sibling to the right, which is the node itself at the odd end of a level; any other
has it to the left. -/
def siblingStep? (level : List α) (index : Nat) : Option (Step α) :=
  level[index]?.bind fun node =>
    if index % 2 = 0 then some ⟨level.getD (index + 1) node, .right⟩
    else level[index - 1]?.map (⟨·, .left⟩)

/-- The audit path of the leaf at an index, if there is one. -/
def path? (combine : α → α → α) : List α → Nat → Option (List (Step α))
  | [], _ => none
  | [_], index => if index = 0 then some [] else none
  | x :: y :: rest, index => do
    let step ← siblingStep? (x :: y :: rest) index
    let above ← path? combine (parents combine (x :: y :: rest)) (index / 2)
    some (step :: above)
  termination_by level => level.length
  decreasing_by
    rw [length_parents]
    simp only [List.length_cons]
    omega

def Step.join (combine : α → α → α) (node : α) (step : Step α) : α :=
  match step.side with
  | .left => combine step.sibling node
  | .right => combine node step.sibling

/-- The root that a path leads to from a leaf. -/
def climb (combine : α → α → α) (leaf : α) (path : List (Step α)) : α :=
  path.foldl (Step.join combine) leaf

end LedgerWatch.Merkle
