import LedgerWatch.Ledger.Assembler

/-!
# Accepted transactions

A transaction arrives with all its outputs at once. They are verified in order, those consumed
before those created, under one view of the node.

## Main definitions

- `AcceptedTransaction`: a transaction with its outputs verified
- `verifyTransaction`: the verification
-/

namespace LedgerWatch

/-- A transaction accepted by the node. -/
structure AcceptedTransaction where
  api : Parameters
  slot : Slot
  transactionId : TransactionId
  consumed : List VerifiedOutput
  created : List VerifiedOutput
  deriving DecidableEq

/-- Verifies every output of a transaction. The first that fails decides the fault. -/
def verifyTransaction (codec : Codec) (ctx : BatchContext) (raw : RawTransaction) :
    Except Fault AcceptedTransaction := do
  let api ← ctx.apiForSlot raw.slot
  let consumed ← raw.consumed.mapM (verifySpent codec api ctx.latestCommitmentId)
  let created ← raw.created.mapM (verifyUnspent codec api ctx.latestCommitmentId)
  return { api, slot := raw.slot, transactionId := raw.transactionId, consumed, created }

end LedgerWatch
