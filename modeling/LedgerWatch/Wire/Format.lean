import LedgerWatch.Identifier
import LedgerWatch.Wire.Utf8

/-!
# The wire format

Ledger objects travel in a fixed-width layout. Integers are little-endian, lists and texts are
preceded by their length as eight bytes, and a record is its fields one after the other. A value is
decoded from a whole byte string, and bytes left over are an error.

## Main definitions

- `Wire.Cause`: why bytes are no encoding
- `Wire.Format`: how values of a type are written and read
- `Format.pair`, `Format.list`, `Format.via`: formats built from formats
- `Format.decode`: reads a whole byte string

## Design notes

A format is a writer and a reader side by side, and records are put together from the formats of
their fields. A law that every combinator keeps therefore holds of every object.
-/

namespace LedgerWatch.Wire

/-- Why bytes are no encoding. -/
inductive Cause where
  /-- The data ends within an integer, a hash or a list. -/
  | endOfData
  /-- A text is announced as longer than the rest of the data. -/
  | textTooLong
  /-- A text is not well-formed. -/
  | notUtf8 (defect : Utf8.Defect)
  /-- A tag is not among the `count` tags of its type. -/
  | unknownTag (tag : UInt32) (count : Nat)
  /-- Bytes are left over. -/
  | trailingBytes
  deriving DecidableEq

def Cause.message : Cause → String
  | endOfData => "io error: unexpected end of file"
  | textTooLong => "io error: "
  | notUtf8 defect => "string is not valid utf8: " ++ defect.message
  | unknownTag tag count => "invalid value: integer `" ++ toString tag.toNat ++
      "`, expected variant index 0 <= i < " ++ toString count
  | trailingBytes => "Slice had bytes remaining after deserialization"

/-- How values of a type are written and read. A reader returns the bytes after the value. -/
structure Format (α : Type) where
  write : α → Bytes
  read : Bytes → Except Cause (α × Bytes)

def takeBytes : (n : Nat) → Bytes → Except Cause ({ bs : Bytes // bs.length = n } × Bytes)
  | 0, data => .ok (⟨[], rfl⟩, data)
  | _ + 1, [] => .error .endOfData
  | n + 1, b :: data => do
    let (bs, rest) ← takeBytes n data
    .ok (⟨b :: bs.val, by simp [bs.property]⟩, rest)

namespace Format

variable {α β : Type}

/-- Numbers of `width` bytes, through their conversions to and from natural numbers. -/
def number (width : Nat) (toNat : α → Nat) (ofNat : Nat → α) : Format α where
  write a := leBytes width (toNat a)
  read data := do
    let (bs, rest) ← takeBytes width data
    .ok (ofNat (leValue bs.val), rest)

def uint8 : Format UInt8 := number 1 UInt8.toNat UInt8.ofNat

def uint16 : Format UInt16 := number 2 UInt16.toNat UInt16.ofNat

def uint32 : Format UInt32 := number 4 UInt32.toNat UInt32.ofNat

def uint64 : Format UInt64 := number 8 UInt64.toNat UInt64.ofNat

def hash : Format Hash where
  write h := h.toList
  read data := do
    let (bs, rest) ← takeBytes 32 data
    .ok (⟨bs.val.toArray, by simp [bs.property]⟩, rest)

/-- The format of `α` for a type whose values correspond to those of `α`. -/
def via (format : Format α) (view : β → α) (back : α → β) : Format β where
  write b := format.write (view b)
  read data := do
    let (a, rest) ← format.read data
    .ok (back a, rest)

/-- A value and then another. -/
def pair (first : Format α) (second : Format β) : Format (α × β) where
  write ab := first.write ab.1 ++ second.write ab.2
  read data := do
    let (a, rest) ← first.read data
    let (b, rest) ← second.read rest
    .ok ((a, b), rest)

def readMany (item : Format α) : Nat → Bytes → Except Cause (List α × Bytes)
  | 0, data => .ok ([], data)
  | n + 1, data => do
    let (a, rest) ← item.read data
    let (as, rest) ← readMany item n rest
    .ok (a :: as, rest)

/-- A list: its length, then its values. An announced length is not compared with the data, so a
list that is too long is read until the data ends. -/
def list (item : Format α) : Format (List α) where
  write as := uint64.write (UInt64.ofNat as.length) ++ as.flatMap item.write
  read data := do
    let (n, rest) ← uint64.read data
    readMany item n.toNat rest

/-- A text: the length of its encoding, then the encoding. -/
def text : Format String where
  write s :=
    let bs := Utf8.encode s
    uint64.write (UInt64.ofNat bs.length) ++ bs
  read data := do
    let (n, rest) ← uint64.read data
    if rest.length < n.toNat then .error .textTooLong
    else
      match Utf8.decode (rest.take n.toNat) with
      | .ok s => .ok (s, rest.drop n.toNat)
      | .error defect => .error (.notUtf8 defect)

def slotId {kind : IdKind} : Format (SlotId kind) :=
  (hash.pair uint32).via (fun id => (id.hash, id.slot)) (fun (hash, slot) => ⟨hash, slot⟩)

@[simp] theorem length_write_uint8 (a : UInt8) : (uint8.write a).length = 1 := length_leBytes ..

@[simp] theorem length_write_uint32 (a : UInt32) : (uint32.write a).length = 4 := length_leBytes ..

@[simp] theorem length_write_uint64 (a : UInt64) : (uint64.write a).length = 8 := length_leBytes ..

@[simp] theorem length_write_slotId {kind : IdKind} (id : SlotId kind) :
    (slotId.write id).length = 36 := by
  simp [slotId, via, pair, hash]

/-- A list of values that all take up the same room. -/
theorem length_write_list {format : Format α} {width : Nat}
    (h : ∀ a, (format.write a).length = width) (as : List α) :
    ((list format).write as).length = 8 + width * as.length := by
  have hitems : (as.flatMap format.write).length = width * as.length := by
    induction as with
    | nil => rfl
    | cons a as ih =>
      rw [List.flatMap_cons, List.length_append, h, ih, List.length_cons, Nat.mul_succ,
        Nat.add_comm]
  simp [list, hitems]

def encode (format : Format α) (a : α) : Bytes := format.write a

/-- The value encoded by a whole byte string. -/
def decode (format : Format α) (data : Bytes) : Except Cause α := do
  let (a, rest) ← format.read data
  if rest.isEmpty then .ok a else .error .trailingBytes

end Format

end LedgerWatch.Wire
