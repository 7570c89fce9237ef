import LedgerWatch.Bytes

/-!
# Identifiers

Commitments, blocks and transactions are named by a hash and the slot they belong to; an output by
its transaction and its index there; an account by a hash alone.

## Main definitions

- `Slot`, `Epoch`: positions in ledger time
- `SlotId`: a hash and a slot, with `CommitmentId`, `BlockId` and `TransactionId` as its kinds
- `OutputId`, `AccountId`

## Design notes

The three slot identifiers have one layout and one text form, so they are one type. Its parameter
keeps an identifier of one kind from being used as another.
-/

namespace LedgerWatch

/-- A position in ledger time. -/
abbrev Slot := UInt32

/-- A run of consecutive slots, counted from zero. -/
abbrev Epoch := UInt32

/-- What a slot identifier names. -/
inductive IdKind where
  | commitment
  | block
  | transaction
  deriving DecidableEq

/-- The name of the type of identifiers of a kind. -/
def IdKind.typeName : IdKind → String
  | commitment => "CommitmentId"
  | block => "BlockId"
  | transaction => "TransactionId"

/-- A hash together with the slot of what it names. -/
structure SlotId (kind : IdKind) where
  hash : Hash
  slot : Slot
  deriving DecidableEq

abbrev CommitmentId := SlotId .commitment

abbrev BlockId := SlotId .block

abbrev TransactionId := SlotId .transaction

namespace SlotId

variable {kind : IdKind}

/-- The identifier that names nothing. -/
def empty : SlotId kind := ⟨Hash.zero, 0⟩

instance : Inhabited (SlotId kind) := ⟨empty⟩

def isEmpty (id : SlotId kind) : Bool := id == empty

/-- The 36 bytes of an identifier: the hash, then the slot, lowest byte first. -/
def toBytes (id : SlotId kind) : Bytes :=
  id.hash.toList ++ leBytes 4 id.slot.toNat

/-- Reads exactly 36 bytes. -/
def ofBytes? (bs : Bytes) : Option (SlotId kind) := do
  let hash ← Hash.ofBytes? (bs.take 32)
  let rest := bs.drop 32
  if rest.length = 4 then some ⟨hash, UInt32.ofNat (leValue rest)⟩ else none

/-- The text form: the bytes in hexadecimal after `0x`. -/
def toText (id : SlotId kind) : String :=
  "0x" ++ Bytes.toHex id.toBytes

/-- The form in which an identifier appears inside a description of a larger value. -/
def describe (id : SlotId kind) : String :=
  kind.typeName ++ " \x7b hash: " ++ Bytes.toDecimalList id.hash.toList ++
    ", slot: " ++ toString id.slot.toNat ++ " \x7d"

@[simp] theorem length_toBytes (id : SlotId kind) : id.toBytes.length = 36 := by
  simp [toBytes]

end SlotId

/-- Names an output by the transaction that creates it and its index there. -/
structure OutputId where
  transaction : TransactionId
  index : UInt16
  deriving DecidableEq

namespace OutputId

/-- The identifier of output 0 of the empty transaction identifier. -/
def empty : OutputId := ⟨SlotId.empty, 0⟩

instance : Inhabited OutputId := ⟨empty⟩

/-- The slot of the creating transaction. -/
def slot (id : OutputId) : Slot := id.transaction.slot

/-- The 38 bytes of an identifier: the transaction's, then the index, lowest byte first. -/
def toBytes (id : OutputId) : Bytes :=
  id.transaction.toBytes ++ leBytes 2 id.index.toNat

/-- Reads exactly 38 bytes. -/
def ofBytes? (bs : Bytes) : Option OutputId := do
  let transaction ← SlotId.ofBytes? (bs.take 36)
  let rest := bs.drop 36
  if rest.length = 2 then some ⟨transaction, UInt16.ofNat (leValue rest)⟩ else none

/-- The text form: the bytes in hexadecimal after `0x`. -/
def toText (id : OutputId) : String :=
  "0x" ++ Bytes.toHex id.toBytes

end OutputId

structure AccountId where
  hash : Hash
  deriving DecidableEq

namespace AccountId

instance : Inhabited AccountId := ⟨⟨Hash.zero⟩⟩

/-- The text form: the hash in hexadecimal after `0x`. -/
def toText (id : AccountId) : String :=
  "0x" ++ Bytes.toHex id.hash.toList

end AccountId

end LedgerWatch
