import LedgerWatch.Message
import LedgerWatch.Status.Cache

/-!
# Honest messages

Messages of a node that is up to date and tells the truth: every payload is encoded in the standard
way, every identifier is the right one and every output comes with its proof.

## Main definitions

- `Fixture.parameters`, `Fixture.commitment`, `Fixture.status`
- `Fixture.outputs`, `Fixture.transaction`
-/

namespace LedgerWatch.Fixture

/-- The default parameters under the supported version. -/
def parameters : RawParameters :=
  ⟨supportedVersion, Wire.parameters.encode {}⟩

/-- The content of the commitment of a slot, which follows an invented one of the slot before. -/
def slotCommitment (slot : Slot) : SlotCommitment :=
  let before : Slot := if slot = 0 then 0 else slot - 1
  { protocolVersion := supportedVersion
    slot
    previousId := ⟨sha256 (leBytes 4 before.toNat), before⟩
    rootsId := sha256 (leBytes 4 slot.toNat).reverse
    cumulativeWeight := slot.toUInt64 * 10
    referenceManaCost := 1 }

def commitment (slot : Slot) : RawCommitment :=
  let content := slotCommitment slot
  ⟨Wire.commitmentId content, Wire.commitment.encode content⟩

/-- The status of a healthy node with the given slots. -/
def status (latest finalized : Slot) : RawStatus :=
  ⟨true, some (commitment latest), some (commitment finalized), 0, parameters⟩

def owner : Hash := Vector.replicate 32 0x11

def encodedOutput (amount : UInt64) : Bytes :=
  Wire.output.encode { amount, owner }

/-- The commitment to all of a transaction but its outputs. -/
def transactionCommitment (slot : Slot) (amounts : List UInt64) : Hash :=
  sha256 (leBytes 4 slot.toNat ++ amounts.flatMap fun amount => leBytes 8 amount.toNat)

/-- The outputs of one transaction, one for each amount that has an index. -/
def outputs (slot : Slot) (amounts : List UInt64) (blockId : BlockId) : List RawOutput :=
  let encoded := amounts.map encodedOutput
  let essence := transactionCommitment slot amounts
  encoded.zipIdx.filterMap fun (output, index) =>
    (OutputProof.build? slot essence encoded index).map fun proof =>
      { blockId
        outputId := proof.outputId output
        slotBooked := slot
        includedIn := none
        output
        proof := Wire.proof.encode proof }

/-- A transaction that creates one output for each amount and consumes none. -/
def transaction (slot : Slot) (amounts : List UInt64) : RawTransaction :=
  let created := outputs slot amounts .empty
  { transactionId := (created.head?.map (·.outputId.transaction)).getD .empty
    slot
    consumed := []
    created }

end LedgerWatch.Fixture
