/-!
# Decimal numbers

Reads unsigned numbers as settings and addresses write them: an optional plus sign and at least one
ASCII digit, with no other character, and a value below a bound.

## Main definitions

- `Decimal.value?`: the value of a list of digits
- `Decimal.read?`: a number below a bound
-/

namespace LedgerWatch.Decimal

def digit? (c : Char) : Option Nat :=
  if '0' ≤ c ∧ c ≤ '9' then some (c.toNat - '0'.toNat) else none

/-- The value of a list of digits, after those already read. -/
def valueFrom (read : Nat) : List Char → Option Nat
  | [] => some read
  | c :: cs => do
    let d ← digit? c
    valueFrom (10 * read + d) cs

/-- The value of a list of at least one digit. -/
def value? : List Char → Option Nat
  | [] => none
  | c :: cs => valueFrom 0 (c :: cs)

/-- A number below a bound, with or without a plus sign. -/
def read? (bound : Nat) (text : String) : Option Nat := do
  let n ← match text.toList with
    | '+' :: digits => value? digits
    | digits => value? digits
  if n < bound then some n else none

end LedgerWatch.Decimal
