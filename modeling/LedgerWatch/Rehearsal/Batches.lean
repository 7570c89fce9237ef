import LedgerWatch.Ledger.Assembler

/-!
# A rehearsal of reassembly

Records are fed to one assembler, and what is known about the node changes in between. Records
after a fault are fed like any others.

## Main definitions

- `BatchRehearsal.Move`, `BatchRehearsal.step`
-/

namespace LedgerWatch.BatchRehearsal

/-- What happens next. -/
inductive Move where
  | record (record : LedgerRecord)
  | setContext (ctx : BatchContext)

/-- The assembler and what is known about the node. -/
structure State where
  assembler : Assembler := .idle
  ctx : BatchContext

def step (codec : Codec) (move : Move) (s : State) :
    State × Except Fault (Option LedgerUpdate) :=
  match move with
  | .record record =>
    let (assembler, result) := s.assembler.process codec s.ctx record
    ({ s with assembler }, result)
  | .setContext ctx => ({ s with ctx }, .ok none)

end LedgerWatch.BatchRehearsal
