import LedgerWatch.Bytes

/-!
# Text in UTF-8

Reads a byte string as UTF-8 text and, where it is none, says where it stops being so. The place
is the length of the longest valid beginning. What follows it is either an ill-formed sequence,
whose length is counted up to the first byte that cannot continue it, or a sequence that the end of
the data cuts short.

## Main definitions

- `Utf8.trail`: the ranges of the bytes that must follow a lead byte
- `Utf8.Defect`: where and how text is ill-formed
- `Utf8.decode`: the text, or its first defect
-/

namespace LedgerWatch.Utf8

/-- A range of byte values, both ends included. -/
structure ByteRange where
  low : UInt8
  high : UInt8

def ByteRange.contains (range : ByteRange) (b : UInt8) : Bool :=
  range.low ≤ b && b ≤ range.high

/-- The range of the bytes that continue a sequence. -/
def continuation : ByteRange := ⟨0x80, 0xBF⟩

/-- The ranges of the bytes that must follow a lead byte, or nothing if no sequence starts with it.
The narrower second ranges exclude overlong forms, surrogates and values beyond the last scalar
value. -/
def trail (lead : UInt8) : Option (List ByteRange) :=
  if lead < 0x80 then some []
  else if lead < 0xC2 then none
  else if lead < 0xE0 then some [continuation]
  else if lead = 0xE0 then some [⟨0xA0, 0xBF⟩, continuation]
  else if lead = 0xED then some [⟨0x80, 0x9F⟩, continuation]
  else if lead < 0xF0 then some [continuation, continuation]
  else if lead = 0xF0 then some [⟨0x90, 0xBF⟩, continuation, continuation]
  else if lead < 0xF4 then some [continuation, continuation, continuation]
  else if lead = 0xF4 then some [⟨0x80, 0x8F⟩, continuation, continuation]
  else none

/-- The first defect of a text: the length of the valid beginning, and the length of the ill-formed
sequence after it, or nothing if the data ends inside a sequence. -/
structure Defect where
  validLength : Nat
  badLength : Option Nat
  deriving DecidableEq

/-- Looks for the first defect. `start` is the length of the text before the current sequence,
`seen` the number of its bytes already read and the list the ranges of those still to come. -/
def defect? (start seen : Nat) : List ByteRange → Bytes → Option Defect
  | [], [] => none
  | [], b :: bs =>
    match trail b with
    | none => some ⟨start + seen, some 1⟩
    | some ranges => defect? (start + seen) 1 ranges bs
  | _ :: _, [] => some ⟨start, none⟩
  | range :: ranges, b :: bs =>
    if range.contains b then defect? start (seen + 1) ranges bs
    else some ⟨start, some seen⟩

/-- The text of a byte string, or its first defect. Text that is no text has a defect, so the
place given where the search finds none stands for nothing. -/
def decode (bs : Bytes) : Except Defect String :=
  match String.fromUTF8? ⟨bs.toArray⟩ with
  | some text => .ok text
  | none => .error ((defect? 0 0 [] bs).getD ⟨0, none⟩)

def encode (text : String) : Bytes :=
  text.toUTF8.data.toList

def Defect.message (defect : Defect) : String :=
  match defect.badLength with
  | some n => "invalid utf-8 sequence of " ++ toString n ++ " bytes from index " ++
      toString defect.validLength
  | none => "incomplete utf-8 byte sequence from index " ++ toString defect.validLength

end LedgerWatch.Utf8
