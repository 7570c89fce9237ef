import LedgerWatch.Wire.Utf8

/-!
# Environment variables

The environment gives names to byte strings. A variable counts as set only if its value is text.

## Main definitions

- `Environment`, `Environment.get?`
-/

namespace LedgerWatch

/-- The variables and their values. -/
structure Environment where
  entries : List (String × Bytes) := []

/-- The value of a variable that is set to a text. -/
def Environment.get? (env : Environment) (name : String) : Option String := do
  let value ← env.entries.lookup name
  (Utf8.decode value).toOption

end LedgerWatch
