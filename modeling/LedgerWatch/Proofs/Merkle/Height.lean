import LedgerWatch.Proofs.Merkle.Position
import LedgerWatch.Proofs.OutputProof

/-!
# The height of a tree

The levels of a tree get shorter until one node is left. This takes as many rounds as the binary
logarithm of the number of leaves, rounded up, for the root as for the path of a leaf. Each step of
a path is one binary digit of the index of its leaf.

## Main results

- `Merkle.one_lt_length_levelAt_iff`: at which heights there is a level to be hashed
- `Merkle.root?_eq_head?_levelAt`: the root is the node left after the last round
- `OutputProof.build?_minimal`: the paths of proofs have the height of the tree, and spell the index
-/

namespace LedgerWatch

namespace Merkle

variable {α : Type}

/-- Two nodes or more are left exactly at the heights below the height of the tree. -/
theorem one_lt_length_levelAt_iff (combine : α → α → α) (leaves : List α) (height : Nat) :
    1 < (levelAt combine leaves height).length ↔ height < Nat.clog 2 leaves.length := by
  induction height generalizing leaves with
  | zero =>
    rw [levelAt]
    constructor
    · exact Nat.clog_pos (by decide)
    · intro h
      by_contra hshort
      rw [Nat.clog_of_right_le_one (Nat.le_of_not_lt hshort)] at h
      exact absurd h (Nat.lt_irrefl 0)
  | succ height ih =>
    rw [levelAt, ih, length_parents]
    by_cases htwo : 1 < leaves.length
    · have hhalf : Nat.clog 2 leaves.length = Nat.clog 2 ((leaves.length + 1) / 2) + 1 :=
        Nat.clog_of_two_le (by decide) htwo
      omega
    · rw [Nat.clog_of_right_le_one (by omega), Nat.clog_of_right_le_one (by omega)]
      omega

/-- The root is the node left at the height of the tree. -/
theorem root?_eq_head?_levelAt (combine : α → α → α) (leaves : List α) :
    root? combine leaves = (levelAt combine leaves (Nat.clog 2 leaves.length)).head? := by
  induction leaves using root?.induct combine with
  | case1 => simp [root?, levelAt]
  | case2 x => simp [root?, levelAt]
  | case3 x y rest ih =>
    have htwo : 1 < (x :: y :: rest).length := by simp
    have hhalf : Nat.clog 2 (x :: y :: rest).length =
        Nat.clog 2 (((x :: y :: rest).length + 1) / 2) + 1 :=
      Nat.clog_of_two_le (by decide) htwo
    rw [root?_eq_root?_parents combine htwo, ih, length_parents, hhalf, levelAt]

end Merkle

namespace OutputProof

/-- The proof of an output has a path as long as the binary logarithm of the number of outputs,
rounded up. The sides along it are the binary digits of the output's index, lowest first, so no two
indices of a transaction share them. The levels, which the root and the paths are computed from, come
to an end: there is one to be hashed exactly at the heights below that logarithm, and the root is what
is left then. -/
theorem build?_minimal :
    (∀ slot commitment outputs index, index < min outputs.length 65536 →
      ∃ proof, build? slot commitment outputs index = some proof ∧
        proof.path.length = Nat.clog 2 outputs.length ∧
        (∀ k (h : k < proof.path.length), proof.path[k].side = .left ↔ index.testBit k) ∧
        ∀ other proof', build? slot commitment outputs other = some proof' → other ≠ index →
          proof'.path.map Merkle.Step.side ≠ proof.path.map Merkle.Step.side) ∧
    ∀ leaves : List Hash,
      (∀ height, 1 < (Merkle.levelAt sha256Pair leaves height).length ↔
        height < Nat.clog 2 leaves.length) ∧
      Merkle.root? sha256Pair leaves =
        (Merkle.levelAt sha256Pair leaves (Nat.clog 2 leaves.length)).head? := by
  refine ⟨?_, fun leaves => ⟨Merkle.one_lt_length_levelAt_iff sha256Pair leaves,
    Merkle.root?_eq_head?_levelAt sha256Pair leaves⟩⟩
  intro slot commitment outputs index hindex
  have hsome : (build? slot commitment outputs index).isSome :=
    (isSome_build?_iff slot commitment outputs index).mpr (by omega)
  obtain ⟨proof, hproof⟩ := Option.isSome_iff_exists.mp hsome
  obtain ⟨-, path, hpath, rfl⟩ := (build?_eq_some_iff _ _ _ _ _).mp hproof
  have hspells := Merkle.spells_of_path? sha256Pair hpath
  refine ⟨_, hproof, ?_, hspells.bits, ?_⟩
  · rw [Merkle.length_path? sha256Pair hpath, List.length_map]
  · intro other proof' hproof' hother hsides
    obtain ⟨-, path', hpath', rfl⟩ := (build?_eq_some_iff _ _ _ _ _).mp hproof'
    have hspells' := Merkle.spells_of_path? sha256Pair hpath'
    have hposition := Merkle.position_eq_of_sides hsides
    rw [← Merkle.spells_iff.mp hspells, ← Merkle.spells_iff.mp hspells'] at hposition
    exact hother hposition

/-- The last of five outputs has its sibling to the left only at the top, as 4 is 100 in binary. -/
theorem build?_minimal_lastOfFive :
    ∃ proof, build? 7 Hash.zero [[1], [2], [3], [4], [5]] 4 = some proof ∧
      proof.path.length = 3 ∧
      ∀ k (h : k < proof.path.length), proof.path[k].side = .left ↔ k = 2 := by
  obtain ⟨proof, hproof, hlength, hbits, -⟩ :=
    build?_minimal.1 7 Hash.zero [[1], [2], [3], [4], [5]] 4 (by decide)
  have hthree : proof.path.length = 3 := hlength.trans (by decide)
  have hfour : ∀ k < 3, Nat.testBit 4 k ↔ k = 2 := by decide
  exact ⟨proof, hproof, hthree, fun k h => (hbits k h).trans (hfour k (hthree ▸ h))⟩

end OutputProof

end LedgerWatch
