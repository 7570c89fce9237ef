import LedgerWatch.Fixture
import LedgerWatch.Proofs.Ledger.Honest
import LedgerWatch.Proofs.Ledger.Verified
import LedgerWatch.Proofs.OutputProof
import Mathlib.Data.List.Nodup

/-!
# Honest messages are accepted

The outputs of an honest transaction pass verification, whatever the amounts are and however many.
An output has sixteen bits for its index, so of a longer list only the first 65536 amounts become
outputs. The proofs speak of all amounts nevertheless.

## Main definitions

- `Fixture.transactionId`: the identifier that all outputs of the transaction have in common
- `Fixture.outputProof`, `Fixture.rawOutput`: the proof and the message for one amount

## Main results

- `Fixture.outputs_eq`: the outputs, one for each amount that has an index
- `Fixture.honest_rawOutput`: each of them is honestly encoded
- `Fixture.outputs_accepted`: verification of the outputs and of the transaction
-/

namespace LedgerWatch.Fixture

/-- The transaction that creates the outputs. -/
def transactionId (slot : Slot) (amounts : List UInt64) : TransactionId :=
  ⟨transactionHash (transactionCommitment slot amounts) (amounts.map encodedOutput), slot⟩

/-- The proof for the output at an index, which the list must reach. -/
def outputProof (slot : Slot) (amounts : List UInt64) (index : Nat) : OutputProof where
  slot := slot
  transactionCommitment := transactionCommitment slot amounts
  outputIndex := UInt16.ofNat index
  path := (Merkle.path? sha256Pair ((amounts.map encodedOutput).map sha256) index).getD []

/-- The message for the output that holds an amount. -/
def rawOutput (slot : Slot) (amounts : List UInt64) (blockId : BlockId) (amount : UInt64)
    (index : Nat) : RawOutput where
  blockId := blockId
  outputId := ⟨transactionId slot amounts, UInt16.ofNat index⟩
  slotBooked := slot
  output := encodedOutput amount
  proof := Wire.proof.encode (outputProof slot amounts index)

theorem lt_and_getElem?_of_mem_zipIdx_take {α : Type} {a : α} {i n : Nat} {as : List α}
    (h : (a, i) ∈ (as.take n).zipIdx) : i < n ∧ as[i]? = some a := by
  have hget := List.mem_zipIdx_iff_getElem?.mp h
  have hi : i < n := by
    have hlength := (List.getElem?_eq_some_iff.mp hget).1
    rw [List.length_take] at hlength
    omega
  rw [List.getElem?_take_of_lt hi] at hget
  exact ⟨hi, hget⟩

/-- Where every entry up to an index gives something and none after it does, the entries up to the
index are mapped. -/
theorem filterMap_zipIdx_eq_map {α β : Type} {f : α × Nat → Option β} {g : α × Nat → β}
    {n : Nat} {as : List α} (hbefore : ∀ a i, i < n → as[i]? = some a → f (a, i) = some (g (a, i)))
    (hafter : ∀ a i, n ≤ i → f (a, i) = none) :
    as.zipIdx.filterMap f = (as.take n).zipIdx.map g := by
  have hsplit : as.zipIdx = (as.take n).zipIdx ++ (as.drop n).zipIdx (as.take n).length := by
    conv_lhs => rw [← List.take_append_drop n as, List.zipIdx_append, Nat.zero_add]
  have hmapped : (as.take n).zipIdx.filterMap f = (as.take n).zipIdx.map g := by
    rw [List.filterMap_eq_map_iff_forall_eq_some]
    rintro ⟨a, i⟩ hentry
    obtain ⟨hi, hget⟩ := lt_and_getElem?_of_mem_zipIdx_take hentry
    exact hbefore a i hi hget
  have hnone : ((as.drop n).zipIdx (as.take n).length).filterMap f = [] := by
    rw [List.filterMap_eq_nil_iff]
    rintro ⟨a, i⟩ hentry
    obtain ⟨hfrom, hto, -⟩ := List.mem_zipIdx hentry
    rw [List.length_take] at hfrom hto
    rw [List.length_drop] at hto
    exact hafter a i (by omega)
  rw [hsplit, List.filterMap_append, hmapped, hnone, List.append_nil]

variable {slot : Slot} {amounts : List UInt64} {blockId : BlockId} {amount : UInt64} {index : Nat}

theorem build?_encodedOutputs (slot : Slot) (hindex : index < 65536)
    (hlength : index < amounts.length) :
    OutputProof.build? slot (transactionCommitment slot amounts) (amounts.map encodedOutput) index =
      some (outputProof slot amounts index) := by
  have hlist : index < ((amounts.map encodedOutput).map sha256).length := by
    simpa using hlength
  obtain ⟨path, hpath⟩ := Option.isSome_iff_exists.mp
    ((Merkle.isSome_path?_iff sha256Pair _ index).mpr hlist)
  rw [OutputProof.build?_eq_some_iff]
  refine ⟨Nat.le_of_lt_succ hindex, path, hpath, ?_⟩
  rw [outputProof, hpath, Option.getD_some]

theorem outputId_outputProof (slot : Slot) (hindex : index < 65536)
    (hamount : amounts[index]? = some amount) :
    (outputProof slot amounts index).outputId (encodedOutput amount) =
      ⟨transactionId slot amounts, UInt16.ofNat index⟩ := by
  have hlength : index < amounts.length := (List.getElem?_eq_some_iff.mp hamount).1
  have houtput : (amounts.map encodedOutput)[index]? = some (encodedOutput amount) := by
    simp [hamount]
  exact OutputProof.outputId_of_build? (build?_encodedOutputs slot hindex hlength) houtput

/-- There is one output for each amount that has an index. -/
theorem outputs_eq (slot : Slot) (amounts : List UInt64) (blockId : BlockId) :
    outputs slot amounts blockId = (amounts.take 65536).zipIdx.map fun (amount, index) =>
      rawOutput slot amounts blockId amount index := by
  simp only [outputs, List.zipIdx_map, List.filterMap_map]
  refine filterMap_zipIdx_eq_map ?_ ?_
  · intro amount index hindex hamount
    have hlength : index < amounts.length := (List.getElem?_eq_some_iff.mp hamount).1
    have hid := outputId_outputProof slot hindex hamount
    simp [build?_encodedOutputs slot hindex hlength, hid, rawOutput]
  · intro amount index hindex
    have hnone : OutputProof.build? slot (transactionCommitment slot amounts)
        (amounts.map encodedOutput) index = none := by
      rw [← Option.not_isSome_iff_eq_none, OutputProof.isSome_build?_iff]
      omega
    simp [hnone]

theorem honest_rawOutput (hamounts : Wire.FitsLength amounts.length) (hindex : index < 65536)
    (hamount : amounts[index]? = some amount) :
    (rawOutput slot amounts blockId amount index).Honest { amount, owner }
      (outputProof slot amounts index) where
  value_fits := by
    change 0 < UInt64.size
    decide
  value_bytes := rfl
  proof_fits := by
    have hlength : index < amounts.length := (List.getElem?_eq_some_iff.mp hamount).1
    obtain ⟨-, path, hpath, hproof⟩ := (OutputProof.build?_eq_some_iff _ _ _ _ _).mp
      (build?_encodedOutputs slot hindex hlength)
    have hsteps : path.length ≤ amounts.length := by
      rw [Merkle.length_path? sha256Pair hpath, List.length_map, List.length_map]
      exact Nat.clog_le_of_le_pow Nat.lt_two_pow_self.le
    rw [hproof]
    exact Nat.lt_of_le_of_lt hsteps hamounts
  proof_bytes := rfl
  id := outputId_outputProof slot hindex hamount

/-- The numbers of the outputs count up from zero. -/
theorem index_outputs (slot : Slot) (amounts : List UInt64) (blockId : BlockId) :
    (outputs slot amounts blockId).map (·.outputId.index.toNat) =
      List.range (min amounts.length 65536) := by
  have hindex : ∀ entry ∈ (amounts.take 65536).zipIdx,
      (UInt16.ofNat entry.2).toNat = entry.2 := by
    rintro ⟨amount, index⟩ hentry
    exact UInt16.toNat_ofNat_of_lt' (lt_and_getElem?_of_mem_zipIdx_take hentry).1
  rw [outputs_eq, List.map_map]
  calc _ = (amounts.take 65536).zipIdx.map Prod.snd := List.map_congr_left hindex
    _ = List.range (min amounts.length 65536) := by
      rw [List.zipIdx_map_snd, List.length_take, Nat.min_comm, List.range_eq_range']

/-- What verification makes of the outputs. -/
def verifiedOutputs (slot : Slot) (amounts : List UInt64) (blockId : BlockId)
    (spend : Option Spend) (latest : CommitmentId) : List VerifiedOutput :=
  (amounts.take 65536).zipIdx.map fun (amount, index) =>
    (rawOutput slot amounts blockId amount index).verified { amount, owner }
      (outputProof slot amounts index) spend latest

theorem mapM_verifyOutput (hamounts : Wire.FitsLength amounts.length) (api : Parameters)
    (spend : Option Spend) (latest : CommitmentId) :
    (outputs slot amounts blockId).mapM (verifyOutput .standard api · spend latest) =
      .ok (verifiedOutputs slot amounts blockId spend latest) := by
  rw [mapM_eq_ok_iff, outputs_eq, verifiedOutputs, List.forall₂_map_left_iff,
    List.forall₂_map_right_iff, List.forall₂_same]
  rintro ⟨amount, index⟩ hentry
  obtain ⟨hindex, hamount⟩ := lt_and_getElem?_of_mem_zipIdx_take hentry
  exact verifyOutput_of_honest (honest_rawOutput hamounts hindex hamount) api spend latest

theorem amount_verifiedOutputs (slot : Slot) (amounts : List UInt64) (blockId : BlockId)
    (spend : Option Spend) (latest : CommitmentId) :
    (verifiedOutputs slot amounts blockId spend latest).map (·.value.amount) =
      amounts.take 65536 := by
  rw [verifiedOutputs, List.map_map]
  exact List.zipIdx_map_fst ..

/-- The outputs of a transaction share its identifier, and are told apart by their index. -/
theorem id_of_verifiedOutputs {spend : Option Spend} {latest : CommitmentId} {v : VerifiedOutput}
    (h : (verifiedOutputs slot amounts blockId spend latest)[index]? = some v) :
    v.id = ⟨transactionId slot amounts, UInt16.ofNat index⟩ ∧ v.id.index.toNat = index := by
  simp only [verifiedOutputs, List.getElem?_map, List.getElem?_zipIdx, Nat.zero_add,
    Option.map_eq_some_iff] at h
  obtain ⟨-, ⟨amount, hget, rfl⟩, rfl⟩ := h
  have hlength := (List.getElem?_eq_some_iff.mp hget).1
  rw [List.length_take] at hlength
  have hindex : index < UInt16.size := Nat.lt_of_lt_of_le hlength (Nat.min_le_left ..)
  exact ⟨rfl, UInt16.toNat_ofNat_of_lt' hindex⟩

/-- The transaction has the identifier that its outputs share, unless it has no outputs. -/
theorem transactionId_transaction (h : amounts ≠ []) :
    (transaction slot amounts).transactionId = transactionId slot amounts := by
  obtain ⟨first, rest, rfl⟩ := List.exists_cons_of_ne_nil h
  simp only [transaction, outputs_eq]
  rfl

/-- Every output of an honest transaction is accepted, under any parameters. There are as many as
amounts, up to 65536, each holds the amount at its index, and all share the transaction's
identifier, so that no two have the same one. A context that has parameters for the slot accepts the
transaction as a whole, with these outputs and with their identifier as its own. -/
theorem outputs_accepted (slot : Slot) (amounts : List UInt64) (blockId : BlockId)
    (hamounts : Wire.FitsLength amounts.length) :
    let raws := outputs slot amounts blockId
    raws.length = min amounts.length 65536 ∧ (raws.map (·.outputId)).Nodup ∧
    (∀ api spend latest, ∃ vs : List VerifiedOutput,
      raws.mapM (verifyOutput .standard api · spend latest) = .ok vs ∧
      vs.map (·.value.amount) = amounts.take 65536 ∧
      ∀ index (v : VerifiedOutput), vs[index]? = some v →
        v.id.transaction = transactionId slot amounts ∧ v.id.slot = slot ∧
        v.id.index.toNat = index) ∧
    ∀ ctx api, ctx.apiForSlot slot = .ok api → ∃ tx,
      verifyTransaction .standard ctx (transaction slot amounts) = .ok tx ∧
      tx.api = api ∧ tx.slot = slot ∧ tx.consumed = [] ∧
      tx.created.map (·.value.amount) = amounts.take 65536 ∧
      tx.transactionId = (transaction slot amounts).transactionId ∧
      ∀ v ∈ tx.created, v.id.transaction = tx.transactionId := by
  intro raws
  have hindexes : (raws.map (·.outputId)).map (·.index.toNat) =
      List.range (min amounts.length 65536) := by
    rw [List.map_map]
    exact index_outputs slot amounts blockId
  refine ⟨?_, ?_, ?_, ?_⟩
  · simpa using congrArg List.length hindexes
  · have hnumbers : ((raws.map (·.outputId)).map (·.index.toNat)).Nodup := by
      rw [hindexes]
      exact List.nodup_range
    exact hnumbers.of_map
  · intro api spend latest
    refine ⟨_, mapM_verifyOutput hamounts api spend latest, amount_verifiedOutputs .., ?_⟩
    intro index v hv
    obtain ⟨hid, hindex⟩ := id_of_verifiedOutputs hv
    refine ⟨?_, ?_, hindex⟩
    · rw [hid]
    · rw [hid]
      rfl
  · intro ctx api hapi
    let created := verifiedOutputs slot amounts .empty none ctx.latestCommitmentId
    have hcreated : List.Forall₂
        (fun raw v => verifyUnspent .standard api ctx.latestCommitmentId raw = .ok v)
        (outputs slot amounts .empty) created :=
      mapM_eq_ok_iff.mp (mapM_verifyOutput hamounts api none ctx.latestCommitmentId)
    refine ⟨⟨api, slot, (transaction slot amounts).transactionId, [], created⟩, ?_, rfl, rfl, rfl,
      amount_verifiedOutputs .., rfl, ?_⟩
    · rw [verifyTransaction_eq_ok_iff]
      exact ⟨hapi, rfl, rfl, .nil, hcreated⟩
    · intro v hv
      have hsome : amounts ≠ [] := by
        rintro rfl
        cases hv
      obtain ⟨index, hget⟩ := List.getElem?_of_mem hv
      dsimp only
      rw [(id_of_verifiedOutputs hget).1, transactionId_transaction hsome]

/-- Three outputs, of which two hold the same amount. -/
theorem outputs_accepted_threeAmounts :
    Wire.FitsLength [5, 5, 7].length ∧
      ((outputs 9 [5, 5, 7] .empty).map (·.outputId)).Nodup ∧
      ∃ tx, verifyTransaction .standard ⟨fun _ => .ok {}, .empty⟩ (transaction 9 [5, 5, 7]) =
          .ok tx ∧
        tx.created.map (·.value.amount) = [5, 5, 7] := by
  have hfits : Wire.FitsLength [(5 : UInt64), 5, 7].length := by
    change 3 < UInt64.size
    decide
  obtain ⟨-, hdistinct, -, htransaction⟩ := outputs_accepted 9 [5, 5, 7] .empty hfits
  obtain ⟨tx, htx, -, -, -, hamounts, -⟩ := htransaction ⟨fun _ => .ok {}, .empty⟩ {} rfl
  exact ⟨hfits, hdistinct, tx, htx, hamounts⟩

end LedgerWatch.Fixture
