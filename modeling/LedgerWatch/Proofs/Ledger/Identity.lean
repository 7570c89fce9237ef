import LedgerWatch.Proofs.Ledger.Output
import LedgerWatch.Proofs.Merkle.Binding
import LedgerWatch.Proofs.Merkle.Position
import LedgerWatch.Proofs.OutputProof

/-!
# What an identifier binds

The identifier of an accepted output is made of a hash, a slot and an index. The hash binds the
bytes of the output: other bytes under the same proof are refused, unless SHA-256 collides on two of
the messages that are hashed on the way. The index is bound by nothing. It is taken from the proof
and never compared with the sides along the path, so a message can be moved to every other index.

## Main definitions

- `OutputProof.messages`: what is hashed to derive an identifier
- `OutputProof.certify`: an output as a node sends it, with a proof and the identifier it derives
- `RawOutput.atIndex`, `VerifiedOutput.atIndex`: an output moved to another index

## Main results

- `OutputProof.outputId_binding`: equal identifiers come from equal outputs, or from a collision
- `verifyOutput_otherBytes`: an accepted output has no other bytes under its proof
- `verifyOutput_everyIndex`: an accepted output is accepted at every index
-/

namespace LedgerWatch

def pairMessage (pair : Hash × Hash) : Bytes := pair.1.toList ++ pair.2.toList

theorem pairMessage_inj (a b : Hash × Hash) (h : pairMessage a = pairMessage b) : a = b := by
  have hlength : a.1.toList.length = b.1.toList.length := by simp
  obtain ⟨hleft, hright⟩ := List.append_inj h hlength
  exact Prod.ext (Vector.toList_inj.mp hleft) (Vector.toList_inj.mp hright)

namespace OutputProof

/-- The path of a proof that was built spells the index of its output. -/
theorem spells_of_build? {slot : Slot} {commitment : Hash} {outputs : List Bytes} {index : Nat}
    {proof : OutputProof} (h : build? slot commitment outputs index = some proof) :
    Merkle.Spells proof.path proof.outputIndex.toNat := by
  obtain ⟨hindex, path, hpath, rfl⟩ := (build?_eq_some_iff _ _ _ _ _).mp h
  have htoNat : (UInt16.ofNat index).toNat = index :=
    UInt16.toNat_ofNat_of_lt' (Nat.lt_succ_of_le hindex)
  rw [htoNat]
  exact Merkle.spells_of_path? sha256Pair hpath

/-- What is hashed last: the transaction's commitment and the root over its outputs. -/
def transactionMessage (proof : OutputProof) (output : Bytes) : Bytes :=
  pairMessage (proof.transactionCommitment, proof.outputsRoot output)

/-- What is hashed to derive the identifier of an output: the output, two nodes for each step of the
path, and the transaction. -/
def messages (proof : OutputProof) (output : Bytes) : List Bytes :=
  output :: (Merkle.joins sha256Pair (sha256 output) proof.path).map pairMessage ++
    [proof.transactionMessage output]

variable {proof : OutputProof} {output output' : Bytes}

theorem self_mem_messages : output ∈ proof.messages output := by simp [messages]

theorem transactionMessage_mem_messages :
    proof.transactionMessage output ∈ proof.messages output := by simp [messages]

theorem joins_subset_messages :
    (Merkle.joins sha256Pair (sha256 output) proof.path).map pairMessage ⊆
      proof.messages output := by
  intro message hmessage
  exact List.mem_append_left _ (List.mem_cons_of_mem _ hmessage)

theorem outputsRoot_eq_of_transactionMessage_eq
    (h : proof.transactionMessage output = proof.transactionMessage output') :
    proof.outputsRoot output = proof.outputsRoot output' :=
  (Prod.mk.inj (pairMessage_inj _ _ h)).2

/-- Outputs to which a proof gives the same identifier are equal, unless two different messages that
are hashed for them have the same hash. -/
theorem outputId_binding (h : proof.outputId output = proof.outputId output') :
    output = output' ∨ Collides sha256 (proof.messages output ++ proof.messages output') := by
  have htransaction : sha256 (proof.transactionMessage output) =
      sha256 (proof.transactionMessage output') := congrArg (fun id => id.transaction.hash) h
  by_cases hroot : proof.outputsRoot output = proof.outputsRoot output'
  · rcases Merkle.climb_binding sha256Pair proof.path hroot with hleaf | hcollision
    · by_cases houtput : output = output'
      · exact .inl houtput
      · exact .inr ⟨output, List.mem_append_left _ self_mem_messages, output',
          List.mem_append_right _ self_mem_messages, houtput, hleaf⟩
    · have hmessages := Collides.map (f := sha256) hcollision pairMessage_inj
      rw [List.map_append] at hmessages
      refine .inr (hmessages.mono (List.append_subset.mpr ⟨?_, ?_⟩))
      · exact List.Subset.trans joins_subset_messages (List.subset_append_left ..)
      · exact List.Subset.trans joins_subset_messages (List.subset_append_right ..)
  · have hdifferent := mt outputsRoot_eq_of_transactionMessage_eq hroot
    exact .inr ⟨_, List.mem_append_left _ transactionMessage_mem_messages, _,
      List.mem_append_right _ transactionMessage_mem_messages, hdifferent, htransaction⟩

/-- The proof with another index in it. -/
def atIndex (proof : OutputProof) (index : UInt16) : OutputProof :=
  { proof with outputIndex := index }

/-- An output with a proof, under the identifier that the proof derives. -/
def certify (proof : OutputProof) (value : TransactionOutput) : RawOutput :=
  { outputId := proof.outputId (Wire.output.encode value)
    output := Wire.output.encode value
    proof := Wire.proof.encode proof }

end OutputProof

variable {api : Parameters} {raw : RawOutput} {spend : Option Spend} {latest : CommitmentId}
  {v : VerifiedOutput}

theorem verifyOutput_certify (proof : OutputProof) (value : TransactionOutput)
    (hvalue : value.Fits) (hproof : proof.Fits) (api : Parameters) (spend : Option Spend)
    (latest : CommitmentId) :
    ∃ v, verifyOutput .standard api (proof.certify value) spend latest = .ok v ∧
      v.id = proof.outputId (Wire.output.encode value) ∧ v.value = value ∧ v.proof = proof := by
  let raw := proof.certify value
  refine ⟨⟨raw.outputId, value, proof, ⟨raw.blockId, raw.slotBooked, raw.includedIn, spend, latest⟩,
    raw.output⟩, ?_, rfl, rfl, rfl⟩
  exact verifyOutput_standard_eq_ok_iff.mpr ⟨⟨hvalue, rfl⟩, ⟨hproof, rfl⟩, rfl, rfl, rfl, rfl⟩

/-- An output as it was sent, but with another index in its proof and in its identifier. -/
def RawOutput.atIndex (raw : RawOutput) (proof : OutputProof) (index : UInt16) : RawOutput :=
  { raw with
    outputId := { raw.outputId with index }
    proof := Wire.proof.encode (proof.atIndex index) }

def VerifiedOutput.atIndex (v : VerifiedOutput) (index : UInt16) : VerifiedOutput :=
  { v with
    id := { v.id with index }
    proof := v.proof.atIndex index }

theorem verifyOutput_atIndex (h : verifyOutput .standard api raw spend latest = .ok v)
    (index : UInt16) :
    verifyOutput .standard api (raw.atIndex v.proof index) spend latest =
      .ok (v.atIndex index) := by
  obtain ⟨hvalue, ⟨hfits, -⟩, hid, hreports⟩ := verifyOutput_standard_eq_ok_iff.mp h
  have hmoved : (v.proof.atIndex index).outputId raw.output = { raw.outputId with index } := by
    rw [← hid]
    rfl
  have hreported : (v.atIndex index).Reports (raw.atIndex v.proof index) spend latest :=
    ⟨congrArg (fun id => { id with index }) hreports.id, hreports.bytes, hreports.metadata⟩
  exact verifyOutput_standard_eq_ok_iff.mpr ⟨hvalue, ⟨hfits, rfl⟩, hmoved, hreported⟩

theorem index_eq_outputIndex (h : verifyOutput .standard api raw spend latest = .ok v) :
    v.id.index = v.proof.outputIndex := by
  obtain ⟨-, -, hid, hreports⟩ := verifyOutput_standard_eq_ok_iff.mp h
  rw [hreports.id, ← hid]
  rfl

/-- An accepted output can be moved to any index, and is accepted there with the same value, bytes
and path. The path spells only one of the indices. If the proof was built for a transaction's
outputs, that is the index it was built with. -/
theorem verifyOutput_everyIndex (h : verifyOutput .standard api raw spend latest = .ok v) :
    (∀ index : UInt16,
      verifyOutput .standard api (raw.atIndex v.proof index) spend latest = .ok (v.atIndex index) ∧
      (Merkle.Spells (v.atIndex index).proof.path (v.atIndex index).id.index.toNat ↔
        index.toNat = Merkle.position v.proof.path)) ∧
    ∀ slot commitment outputs index,
      OutputProof.build? slot commitment outputs index = some v.proof →
      Merkle.Spells v.proof.path v.id.index.toNat := by
  refine ⟨fun index => ⟨verifyOutput_atIndex h index, Merkle.spells_iff⟩, ?_⟩
  intro slot commitment outputs index hbuild
  rw [index_eq_outputIndex h]
  exact OutputProof.spells_of_build? hbuild

def firstOfTwo : TransactionOutput := { amount := 100 }

def secondOfTwo : TransactionOutput := { amount := 200 }

/-- The proof of the first of a transaction's two outputs, whose sibling is the second. -/
def firstProof : OutputProof :=
  ⟨8, Hash.zero, 0, [⟨sha256 (Wire.output.encode secondOfTwo), .right⟩]⟩

def secondProof : OutputProof :=
  ⟨8, Hash.zero, 1, [⟨sha256 (Wire.output.encode firstOfTwo), .left⟩]⟩

/-- The first of two outputs is accepted at index 1, where its path does not lead. -/
theorem verifyOutput_everyIndex_firstOfTwo :
    ∃ v, verifyOutput .standard {} (firstProof.certify firstOfTwo) none .empty = .ok v ∧
      verifyOutput .standard {} ((firstProof.certify firstOfTwo).atIndex v.proof 1) none .empty =
        .ok (v.atIndex 1) ∧
      ¬ Merkle.Spells (v.atIndex 1).proof.path (v.atIndex 1).id.index.toNat := by
  obtain ⟨v, hv, -, -, hproof⟩ := verifyOutput_certify firstProof firstOfTwo (by decide)
    (by decide) {} none .empty
  obtain ⟨haccepted, hspells⟩ := (verifyOutput_everyIndex hv).1 1
  refine ⟨v, hv, haccepted, ?_⟩
  rw [hspells, hproof]
  decide

/-- Under the identifier of the second of two outputs the first is accepted as well. -/
theorem verifyOutput_misplaced :
    ∃ v w,
      verifyOutput .standard {} ((firstProof.atIndex 1).certify firstOfTwo) none .empty = .ok v ∧
      verifyOutput .standard {} (secondProof.certify secondOfTwo) none .empty = .ok w ∧
      v.id = w.id ∧ v.value ≠ w.value ∧ ¬ Merkle.Spells v.proof.path v.id.index.toNat := by
  obtain ⟨v, hv, hid, hvalue, hproof⟩ := verifyOutput_certify (firstProof.atIndex 1) firstOfTwo
    (by decide) (by decide) {} none .empty
  obtain ⟨w, hw, hid', hvalue', -⟩ := verifyOutput_certify secondProof secondOfTwo (by decide)
    (by decide) {} none .empty
  have hsame : (firstProof.atIndex 1).outputId (Wire.output.encode firstOfTwo) =
      secondProof.outputId (Wire.output.encode secondOfTwo) := by
    simp only [OutputProof.outputId, OutputProof.outputsRoot, OutputProof.atIndex, firstProof,
      secondProof, Merkle.climb, List.foldl_cons, List.foldl_nil, Merkle.Step.join]
  refine ⟨v, w, hv, hw, ?_, ?_, ?_⟩
  · rw [hid, hid', hsame]
  · rw [hvalue, hvalue']
    decide
  · rw [Merkle.spells_iff, index_eq_outputIndex hv, hproof]
    decide

/-- Bytes other than those of an accepted output are refused in its place, whatever else is known
then, unless two different messages that are hashed for the two have the same hash. -/
theorem verifyOutput_otherBytes (h : verifyOutput .standard api raw spend latest = .ok v)
    {other : Bytes} (hother : other ≠ raw.output) (api' : Parameters) (spend' : Option Spend)
    (latest' : CommitmentId) :
    (∃ fault, verifyOutput .standard api' { raw with output := other } spend' latest' =
      .error fault) ∨
    Collides sha256 (v.proof.messages raw.output ++ v.proof.messages other) := by
  obtain ⟨-, ⟨hfits, hproof⟩, hid, -⟩ := verifyOutput_standard_eq_ok_iff.mp h
  cases hresult : verifyOutput .standard api' { raw with output := other } spend' latest' with
  | error fault => exact .inl ⟨fault, rfl⟩
  | ok w =>
    obtain ⟨-, ⟨hfits', hproof'⟩, hid', -⟩ := verifyOutput_standard_eq_ok_iff.mp hresult
    -- the proof is part of the message, so both runs decode the same one
    have hsame : w.proof = v.proof :=
      Wire.exact_proof.encode_inj hfits' hfits (hproof'.trans hproof.symm)
    rw [hsame] at hid'
    rcases OutputProof.outputId_binding (hid.trans hid'.symm) with heq | hcollision
    · exact absurd heq.symm hother
    · exact .inr hcollision

/-- The second of two outputs in the place of the first, under the proof of the first. -/
theorem verifyOutput_otherBytes_secondOfTwo :
    ∃ v, verifyOutput .standard {} (firstProof.certify firstOfTwo) none .empty = .ok v ∧
      ((∃ fault, verifyOutput .standard {}
          { firstProof.certify firstOfTwo with output := Wire.output.encode secondOfTwo }
          none .empty = .error fault) ∨
        Collides sha256 (v.proof.messages (Wire.output.encode firstOfTwo) ++
          v.proof.messages (Wire.output.encode secondOfTwo))) := by
  obtain ⟨v, hv, -⟩ := verifyOutput_certify firstProof firstOfTwo (by decide) (by decide) {} none
    .empty
  have hother : Wire.output.encode secondOfTwo ≠ Wire.output.encode firstOfTwo := by decide
  exact ⟨v, hv, verifyOutput_otherBytes hv hother {} none .empty⟩

end LedgerWatch
