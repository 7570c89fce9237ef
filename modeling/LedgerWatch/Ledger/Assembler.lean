import LedgerWatch.Ledger.Output

/-!
# Reassembly of ledger updates

The node streams each atomic change of the ledger as a run of records: an opening marker, the
outputs consumed and created, and a closing marker. An assembler folds such a run into one update.
The closing marker has to agree with what was collected since the opening one, whose own counts are
not relied on.

## Main definitions

- `BatchContext`: what is known about the node when a batch opens
- `LedgerUpdate`: a batch, with the context of its opening marker
- `Assembler`: idle, or in the middle of a batch
- `Assembler.process`: one record

## Design notes

A record that fails leaves the batch as it was, except that a closing marker takes the batch away
before it is compared with it.
-/

namespace LedgerWatch

/-- What is known about the node at a moment. -/
structure BatchContext where
  /-- The parameters under which objects of a slot are decoded. -/
  apiForSlot : Slot → Except Fault Parameters
  /-- The latest commitment, or the empty identifier. -/
  latestCommitmentId : CommitmentId

/-- One atomic change of the ledger. -/
structure LedgerUpdate where
  api : Parameters
  commitmentId : CommitmentId
  /-- The latest commitment known when the batch opened, which its outputs carry too. -/
  latestCommitmentId : CommitmentId
  consumed : List VerifiedOutput := []
  created : List VerifiedOutput := []
  deriving DecidableEq

/-- The state of reassembly: the open batch, if there is one. -/
structure Assembler where
  batch : Option LedgerUpdate := none
  deriving DecidableEq

namespace Assembler

def idle : Assembler := {}

def isOpen (a : Assembler) : Bool := a.batch.isSome

/-- An opening marker starts an empty batch under the context of the moment. -/
def openBatch (ctx : BatchContext) (marker : BatchMarker) (a : Assembler) :
    Assembler × Except Fault (Option LedgerUpdate) :=
  match a.batch with
  | some _ => (a, .error .batchAlreadyOpen)
  | none =>
    match ctx.apiForSlot marker.commitmentId.slot with
    | .error fault => (a, .error fault)
    | .ok api =>
      (⟨some {
        api
        commitmentId := marker.commitmentId
        latestCommitmentId := ctx.latestCommitmentId }⟩, .ok none)

/-- Whether a closing marker agrees with a batch. -/
def closes (marker : BatchMarker) (batch : LedgerUpdate) : Bool :=
  batch.consumed.length == marker.consumedCount.toNat &&
    batch.created.length == marker.createdCount.toNat &&
    batch.commitmentId == marker.commitmentId

/-- A closing marker takes the batch away and delivers it if the two agree. -/
def closeBatch (marker : BatchMarker) (a : Assembler) :
    Assembler × Except Fault (Option LedgerUpdate) :=
  match a.batch with
  | none => (a, .error .noOpenBatch)
  | some batch => (idle, if closes marker batch then .ok (some batch) else .error .batchMismatch)

/-- An output joins the open batch once it is verified under the batch's own context. -/
def collect (verify : LedgerUpdate → Except Fault VerifiedOutput)
    (add : LedgerUpdate → VerifiedOutput → LedgerUpdate) (a : Assembler) :
    Assembler × Except Fault (Option LedgerUpdate) :=
  match a.batch with
  | none => (a, .error .noOpenBatch)
  | some batch =>
    match verify batch with
    | .error fault => (a, .error fault)
    | .ok output => (⟨some (add batch output)⟩, .ok none)

def process (codec : Codec) (ctx : BatchContext) (record : LedgerRecord) (a : Assembler) :
    Assembler × Except Fault (Option LedgerUpdate) :=
  match record with
  | .marker marker =>
    match marker.kind with
    | .opening => a.openBatch ctx marker
    | .closing => a.closeBatch marker
  | .consumed spent =>
    a.collect (fun batch => verifySpent codec batch.api batch.latestCommitmentId spent)
      (fun batch output => { batch with consumed := batch.consumed ++ [output] })
  | .created raw =>
    a.collect (fun batch => verifyUnspent codec batch.api batch.latestCommitmentId raw)
      (fun batch output => { batch with created := batch.created ++ [output] })

end Assembler

end LedgerWatch
