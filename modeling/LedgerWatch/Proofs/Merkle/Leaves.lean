import LedgerWatch.Proofs.Ledger.Identity

/-!
# A root binds its leaves

Two lists of leaves of one length have the same root only if they are equal, or if two different
pairs of nodes that are hashed for the two roots have the same hash. Where two levels differ but the
levels above them agree, such a pair is found between the two. Nothing is assumed of the hash.

The lengths have to agree: a level of odd length pairs its last node with itself, so a list may be
made longer by its last leaf without a change of the root.

## Main definitions

- `Merkle.levelPairs`: the pairs of nodes of a level
- `Merkle.rootPairs`: the pairs of nodes that are combined for a root
- `rootMessages`: what is hashed to compute a root

## Main results

- `Merkle.root?_binding`: equal roots come from equal leaves, or from a collision
- `merkleRoot_binding`: the same for SHA-256
-/

namespace LedgerWatch

/-- Two lists with the same image are equal, unless two different elements have the same image. -/
theorem Collides.of_map_eq {α β : Type} {f : α → β} {xs ys : List α} (h : xs.map f = ys.map f) :
    xs = ys ∨ Collides f (xs ++ ys) := by
  induction xs generalizing ys with
  | nil =>
    obtain rfl : ys = [] := by simpa using h.symm
    exact .inl rfl
  | cons x xs ih =>
    cases ys with
    | nil => simp at h
    | cons y ys =>
      obtain ⟨hhead, htail⟩ : f x = f y ∧ xs.map f = ys.map f := by simpa using h
      by_cases hxy : x = y
      · rcases ih htail with rfl | hcollision
        · exact .inl (by rw [hxy])
        · refine .inr (hcollision.mono ?_)
          intro z hz
          simp only [List.mem_append, List.mem_cons] at hz ⊢
          exact hz.imp .inr .inr
      · exact .inr ⟨x, by simp, y, by simp, hxy, hhead⟩

namespace Merkle

variable {α : Type}

/-- The pairs of nodes of a level, from the left. A last node without a partner is its own. -/
def levelPairs : List α → List (α × α)
  | [] => []
  | [x] => [(x, x)]
  | x :: y :: rest => (x, y) :: levelPairs rest

theorem parents_eq_map_levelPairs (combine : α → α → α) (level : List α) :
    parents combine level = (levelPairs level).map fun pair => combine pair.1 pair.2 := by
  fun_induction levelPairs level with
  | case1 => rfl
  | case2 x => rfl
  | case3 x y rest ih => rw [parents, ih, List.map_cons]

/-- The pairs of a level and its length determine the level. -/
theorem levelPairs_inj {level level' : List α} (hlength : level.length = level'.length)
    (h : levelPairs level = levelPairs level') : level = level' := by
  fun_induction levelPairs level generalizing level' with
  | case1 => exact (List.length_eq_zero_iff.mp hlength.symm).symm
  | case2 x =>
    obtain ⟨x', rfl⟩ := List.length_eq_one_iff.mp hlength.symm
    simpa [levelPairs] using h
  | case3 x y rest ih =>
    match level', hlength with
    | x' :: y' :: rest', hlength =>
      obtain ⟨⟨hx, hy⟩, hrest⟩ : (x = x' ∧ y = y') ∧ levelPairs rest = levelPairs rest' := by
        simpa [levelPairs] using h
      rw [hx, hy, ih (by simpa using hlength) hrest]

/-- The pairs of nodes that are combined on the way from the leaves to the root. -/
def rootPairs (combine : α → α → α) : List α → List (α × α)
  | [] => []
  | [_] => []
  | x :: y :: rest =>
    levelPairs (x :: y :: rest) ++ rootPairs combine (parents combine (x :: y :: rest))
  termination_by level => level.length
  decreasing_by
    rw [length_parents]
    simp only [List.length_cons]
    omega

theorem rootPairs_eq_append (combine : α → α → α) {level : List α} (h : 1 < level.length) :
    rootPairs combine level = levelPairs level ++ rootPairs combine (parents combine level) := by
  match level, h with
  | x :: y :: rest, _ => rw [rootPairs]

theorem isSome_root? (combine : α → α → α) {leaves : List α} (h : leaves ≠ []) :
    (root? combine leaves).isSome := by
  induction leaves using root?.induct combine with
  | case1 => exact absurd rfl h
  | case2 x => simp [root?]
  | case3 x y rest ih =>
    rw [root?_eq_root?_parents combine (by simp)]
    exact ih (by simp [parents])

/-- Levels of one length with the same level above are equal, or two of their pairs collide. -/
theorem parents_binding (combine : α → α → α) {level level' : List α}
    (hlength : level.length = level'.length)
    (hparents : parents combine level = parents combine level') :
    level = level' ∨ Collides (fun pair => combine pair.1 pair.2)
      (levelPairs level ++ levelPairs level') := by
  rw [parents_eq_map_levelPairs, parents_eq_map_levelPairs] at hparents
  exact (Collides.of_map_eq hparents).imp_left (levelPairs_inj hlength)

/-- Lists of one length with the same root are equal, or two pairs combined for the roots collide. -/
theorem root?_binding (combine : α → α → α) {leaves leaves' : List α}
    (hlength : leaves.length = leaves'.length)
    (hroot : root? combine leaves = root? combine leaves') :
    leaves = leaves' ∨ Collides (fun pair => combine pair.1 pair.2)
      (rootPairs combine leaves ++ rootPairs combine leaves') := by
  induction leaves using root?.induct combine generalizing leaves' with
  | case1 => exact .inl (List.length_eq_zero_iff.mp hlength.symm).symm
  | case2 x =>
    obtain ⟨x', rfl⟩ := List.length_eq_one_iff.mp hlength.symm
    exact .inl (by simpa [root?] using hroot)
  | case3 x y rest ih =>
    have htwo : 1 < (x :: y :: rest).length := by simp
    have htwo' : 1 < leaves'.length := hlength ▸ htwo
    rw [root?_eq_root?_parents combine htwo, root?_eq_root?_parents combine htwo'] at hroot
    rw [rootPairs_eq_append combine htwo, rootPairs_eq_append combine htwo']
    have habove := ih (by rw [length_parents, length_parents, hlength]) hroot
    -- a collision is on this level or above it, and the pairs of both are among those of the roots
    rcases habove with hparents | hcollision
    · refine (parents_binding combine hlength hparents).imp_right fun hcollision => ?_
      exact hcollision.mono (List.append_subset.mpr ⟨by grind, by grind⟩)
    · exact .inr (hcollision.mono (List.append_subset.mpr ⟨by grind, by grind⟩))

end Merkle

/-- What is hashed to compute the root over some leaves: two nodes at a time. -/
def rootMessages (leaves : List Hash) : List Bytes :=
  (Merkle.rootPairs sha256Pair leaves).map pairMessage

theorem length_of_mem_rootMessages {leaves : List Hash} {message : Bytes}
    (h : message ∈ rootMessages leaves) : message.length = 64 := by
  obtain ⟨pair, -, rfl⟩ := List.mem_map.mp h
  simp [pairMessage]

theorem root?_eq_of_merkleRoot_eq {leaves leaves' : List Hash}
    (hlength : leaves.length = leaves'.length) (h : merkleRoot leaves = merkleRoot leaves') :
    Merkle.root? sha256Pair leaves = Merkle.root? sha256Pair leaves' := by
  cases leaves with
  | nil => rw [List.length_eq_zero_iff.mp hlength.symm]
  | cons leaf rest =>
    have hleaves : leaf :: rest ≠ [] := List.cons_ne_nil leaf rest
    have hleaves' : leaves' ≠ [] := by
      rintro rfl
      cases hlength
    obtain ⟨root, hroot⟩ := Option.isSome_iff_exists.mp (Merkle.isSome_root? sha256Pair hleaves)
    obtain ⟨root', hroot'⟩ := Option.isSome_iff_exists.mp (Merkle.isSome_root? sha256Pair hleaves')
    simpa [merkleRoot, hroot, hroot'] using h

/-- A root is that of no other list of its length, unless two different messages that are hashed for
the two roots have the same hash. Each of these messages is two hashes long. -/
theorem merkleRoot_binding {leaves leaves' : List Hash} (hlength : leaves.length = leaves'.length) :
    ((merkleRoot leaves = merkleRoot leaves' ↔ leaves = leaves') ∨
      Collides sha256 (rootMessages leaves ++ rootMessages leaves')) ∧
    ∀ message ∈ rootMessages leaves ++ rootMessages leaves', message.length = 64 := by
  constructor
  · by_cases hroot : merkleRoot leaves = merkleRoot leaves'
    · rcases Merkle.root?_binding sha256Pair hlength (root?_eq_of_merkleRoot_eq hlength hroot) with
        rfl | hcollision
      · exact .inl ⟨fun _ => rfl, fun _ => rfl⟩
      · have hmessages := Collides.map (f := sha256) hcollision pairMessage_inj
        rw [List.map_append] at hmessages
        exact .inr hmessages
    · exact .inl (iff_of_false hroot (mt (congrArg merkleRoot) hroot))
  · intro message hmessage
    rcases List.mem_append.mp hmessage with h | h
    · exact length_of_mem_rootMessages h
    · exact length_of_mem_rootMessages h

/-- Of two lists of three leaves that differ in the last one, which is its own partner, the roots
differ as well, or SHA-256 collides on two of the messages hashed for them. -/
theorem merkleRoot_binding_lastOfThree :
    let leaves := [sha256 [1], sha256 [2], Hash.zero]
    let leaves' := [sha256 [1], sha256 [2], Vector.replicate 32 1]
    merkleRoot leaves ≠ merkleRoot leaves' ∨
      Collides sha256 (rootMessages leaves ++ rootMessages leaves') := by
  intro leaves leaves'
  have hdifferent : leaves ≠ leaves' := by simp [leaves, leaves', Hash.zero]
  have hlength : leaves.length = leaves'.length := rfl
  exact (merkleRoot_binding hlength).1.imp_left fun h => mt h.mp hdifferent

end LedgerWatch
