/-!
# Byte strings and hashes

Everything the node sends is a string of bytes. This file fixes their type, the little-endian
digits of a number, the hexadecimal text in which bytes are shown, and the 32-byte hash.

## Main definitions

- `Bytes`: a byte string
- `leBytes`, `leValue`: the low digits of a number to base 256, lowest first, and their value
- `Bytes.toHex`, `Bytes.ofHex?`: two hexadecimal digits a byte
- `Hash`: exactly 32 bytes
-/

namespace LedgerWatch

abbrev Bytes := List UInt8

/-- The lowest `width` digits of `n` to base 256, lowest first. -/
def leBytes : Nat → Nat → Bytes
  | 0, _ => []
  | width + 1, n => UInt8.ofNat n :: leBytes width (n / 256)

/-- The number whose digits to base 256, lowest first, are the given bytes. -/
def leValue : Bytes → Nat
  | [] => 0
  | b :: bs => b.toNat + 256 * leValue bs

@[simp] theorem length_leBytes (width n : Nat) : (leBytes width n).length = width := by
  induction width generalizing n with
  | zero => rfl
  | succ width ih => simp [leBytes, ih]

theorem leValue_leBytes (width n : Nat) : leValue (leBytes width n) = n % Nat.pow 256 width := by
  induction width generalizing n with
  | zero => simp [leBytes, leValue, Nat.mod_one]
  | succ width ih =>
    have hpow : Nat.pow 256 (width + 1) = 256 * Nat.pow 256 width := Nat.mul_comm _ _
    rw [leBytes, leValue, ih, UInt8.toNat_ofNat', hpow, Nat.mod_mul]

theorem leBytes_leValue (bs : Bytes) : leBytes bs.length (leValue bs) = bs := by
  induction bs with
  | nil => rfl
  | cons b bs ih =>
    have hb : b.toNat < 256 := b.toNat_lt
    have hdiv : (b.toNat + 256 * leValue bs) / 256 = leValue bs := by omega
    have hlow : UInt8.ofNat (b.toNat + 256 * leValue bs) = b := by
      apply UInt8.toNat_inj.mp
      rw [UInt8.toNat_ofNat']
      omega
    simp [leBytes, leValue, hdiv, hlow, ih]

/-- The digit of a number below 16, in lower case. -/
def hexDigit (n : Nat) : Char :=
  if n < 10 then Char.ofNat ('0'.toNat + n) else Char.ofNat ('a'.toNat + (n - 10))

/-- The value of a hexadecimal digit of either case. -/
def hexDigitValue? (c : Char) : Option Nat :=
  if '0' ≤ c ∧ c ≤ '9' then some (c.toNat - '0'.toNat)
  else if 'a' ≤ c ∧ c ≤ 'f' then some (c.toNat - 'a'.toNat + 10)
  else if 'A' ≤ c ∧ c ≤ 'F' then some (c.toNat - 'A'.toNat + 10)
  else none

namespace Bytes

/-- Two lower-case hexadecimal digits a byte, the high one first. -/
def toHex (bs : Bytes) : String :=
  String.ofList (bs.flatMap fun b => [hexDigit (b.toNat / 16), hexDigit (b.toNat % 16)])

/-- Reads pairs of hexadecimal digits. A lone digit or any other character is refused. -/
def ofHexDigits? : List Char → Option Bytes
  | [] => some []
  | [_] => none
  | hi :: lo :: rest => do
    let h ← hexDigitValue? hi
    let l ← hexDigitValue? lo
    let bs ← ofHexDigits? rest
    some (UInt8.ofNat (16 * h + l) :: bs)

/-- Reads hexadecimal text with or without a leading `0x`. -/
def ofHex? (text : String) : Option Bytes :=
  match text.toList with
  | '0' :: 'x' :: digits => ofHexDigits? digits
  | digits => ofHexDigits? digits

/-- The bytes as a bracketed list of decimal numbers. -/
def toDecimalList (bs : Bytes) : String :=
  "[" ++ ", ".intercalate (bs.map fun b => toString b.toNat) ++ "]"

end Bytes

abbrev Hash := Vector UInt8 32

namespace Hash

/-- The hash of 32 zero bytes, which stands for the absence of one. -/
def zero : Hash := Vector.replicate 32 0

/-- The hash of exactly the given bytes, if they are 32. -/
def ofBytes? (bs : Bytes) : Option Hash :=
  if h : bs.length = 32 then some ⟨bs.toArray, by simpa using h⟩ else none

end Hash

end LedgerWatch
