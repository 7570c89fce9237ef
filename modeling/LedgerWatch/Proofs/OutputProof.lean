import LedgerWatch.OutputProof
import LedgerWatch.Proofs.Merkle

/-!
# Output identity proofs are complete

Every output of a transaction has a proof, unless its index does not fit, and the proof gives it the
identifier made of the transaction's hash, its slot and the index.

## Main definitions

- `transactionHash`: the hash of a transaction with the given outputs

## Main results

- `OutputProof.build?_eq_some_iff`: what a proof is made of
- `OutputProof.build?_complete`: proofs exist, and derive the identifier that they should
-/

namespace LedgerWatch

/-- The hash of a transaction: that of its commitment and the root over its outputs. -/
def transactionHash (commitment : Hash) (outputs : List Bytes) : Hash :=
  sha256 (commitment.toList ++ (merkleRoot (outputs.map sha256)).toList)

namespace OutputProof

/-- A proof is made of the audit path of the output's leaf. -/
theorem build?_eq_some_iff (slot : Slot) (commitment : Hash) (outputs : List Bytes) (index : Nat)
    (proof : OutputProof) :
    build? slot commitment outputs index = some proof ↔
      index ≤ 65535 ∧ ∃ path, Merkle.path? sha256Pair (outputs.map sha256) index = some path ∧
        proof = ⟨slot, commitment, UInt16.ofNat index, path⟩ := by
  have hsize : index < UInt16.size ↔ index ≤ 65535 := Nat.lt_succ_iff
  unfold build?
  split
  next hindex =>
    simp only [hsize.mp hindex, true_and, Option.map_eq_some_iff]
    exact exists_congr fun path => and_congr_right fun _ => eq_comm
  next hindex => simp [mt hsize.mpr hindex]

/-- Exactly the outputs whose index fits have a proof. -/
theorem isSome_build?_iff (slot : Slot) (commitment : Hash) (outputs : List Bytes) (index : Nat) :
    (build? slot commitment outputs index).isSome ↔ index < outputs.length ∧ index ≤ 65535 := by
  have hpath := Merkle.isSome_path?_iff sha256Pair (outputs.map sha256) index
  rw [List.length_map, Option.isSome_iff_exists] at hpath
  simp only [Option.isSome_iff_exists, build?_eq_some_iff, ← hpath]
  constructor
  · rintro ⟨proof, hindex, path, hsome, -⟩
    exact ⟨⟨path, hsome⟩, hindex⟩
  · rintro ⟨⟨path, hsome⟩, hindex⟩
    exact ⟨_, hindex, path, hsome, rfl⟩

/-- A proof that was built leads its output to the root over all outputs. -/
theorem outputsRoot_of_build? {slot : Slot} {commitment : Hash} {outputs : List Bytes}
    {index : Nat} {proof : OutputProof} {output : Bytes}
    (hproof : build? slot commitment outputs index = some proof)
    (houtput : outputs[index]? = some output) :
    proof.outputsRoot output = merkleRoot (outputs.map sha256) := by
  obtain ⟨-, path, hpath, rfl⟩ := (build?_eq_some_iff _ _ _ _ _).mp hproof
  have hleaf : (outputs.map sha256)[index]? = some (sha256 output) := by simp [houtput]
  simp [outputsRoot, merkleRoot, Merkle.root?_eq_climb sha256Pair hpath hleaf]

/-- A proof that was built gives its output the identifier of the output at its index. -/
theorem outputId_of_build? {slot : Slot} {commitment : Hash} {outputs : List Bytes}
    {index : Nat} {proof : OutputProof} {output : Bytes}
    (hproof : build? slot commitment outputs index = some proof)
    (houtput : outputs[index]? = some output) :
    proof.outputId output = ⟨⟨transactionHash commitment outputs, slot⟩, UInt16.ofNat index⟩ := by
  have hroot := outputsRoot_of_build? hproof houtput
  obtain ⟨-, path, -, rfl⟩ := (build?_eq_some_iff _ _ _ _ _).mp hproof
  rw [outputId, hroot]
  rfl

/-- A proof exists exactly for the outputs whose index fits. It gives its output the identifier of
the transaction's hash, the slot and the index, so that all outputs of a transaction share its
identifier. On the way up every access to a level is to a node that the level has. -/
theorem build?_complete (slot : Slot) (commitment : Hash) (outputs : List Bytes) (index : Nat) :
    ((build? slot commitment outputs index).isSome ↔ index < outputs.length ∧ index ≤ 65535) ∧
    ∀ proof output, build? slot commitment outputs index = some proof →
      outputs[index]? = some output →
      proof.outputId output = ⟨⟨transactionHash commitment outputs, slot⟩, UInt16.ofNat index⟩ ∧
      (proof.outputId output).index.toNat = index ∧
      (∀ other proof' output', build? slot commitment outputs other = some proof' →
        outputs[other]? = some output' →
        (proof'.outputId output').transaction = (proof.outputId output).transaction) ∧
      ∀ height < proof.path.length,
        index / 2 ^ height < (Merkle.levelAt sha256Pair (outputs.map sha256) height).length ∧
        proof.path[height]? = Merkle.siblingStep?
          (Merkle.levelAt sha256Pair (outputs.map sha256) height) (index / 2 ^ height) := by
  refine ⟨isSome_build?_iff slot commitment outputs index, ?_⟩
  intro proof output hproof houtput
  have hid := outputId_of_build? hproof houtput
  obtain ⟨hindex, path, hpath, rfl⟩ := (build?_eq_some_iff _ _ _ _ _).mp hproof
  refine ⟨hid, ?_, ?_, ?_⟩
  · rw [hid]
    exact UInt16.toNat_ofNat_of_lt' (Nat.lt_succ_of_le hindex)
  · intro other proof' output' hproof' houtput'
    rw [hid, outputId_of_build? hproof' houtput']
  · intro height hheight
    exact Merkle.getElem?_path? sha256Pair hpath hheight

/-- Of three outputs the last is its own sibling. -/
theorem build?_complete_last_of_three :
    ∃ proof, build? 7 Hash.zero [[1], [2], [3]] 2 = some proof ∧
      proof.outputId [3] = ⟨⟨transactionHash Hash.zero [[1], [2], [3]], 7⟩, 2⟩ := by
  obtain ⟨hsome, hcomplete⟩ := build?_complete 7 Hash.zero [[1], [2], [3]] 2
  obtain ⟨proof, hproof⟩ := Option.isSome_iff_exists.mp (hsome.mpr (by decide))
  exact ⟨proof, hproof, (hcomplete proof [3] hproof rfl).1⟩

end OutputProof

end LedgerWatch
