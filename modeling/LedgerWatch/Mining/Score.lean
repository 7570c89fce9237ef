import LedgerWatch.Sha256

/-!
# Work scores

The score of a byte string is the number of zero bits with which its double hash begins. A block is
accepted only if its encoding reaches the score that the protocol parameters ask for.

## Main definitions

- `leadingZeroBits`: the zero bits at the start of a byte string
- `workScore`: those of the double hash
- `withNonce`: an encoding with its nonce, as eight bytes, at the end
- `reaches`: whether a nonce is good enough
-/

namespace LedgerWatch

/-- The number of zero bits before the first set bit. -/
def leadingZeroBits : Bytes → Nat
  | [] => 0
  | b :: bs => if b = 0 then 8 + leadingZeroBits bs else 7 - b.toNat.log2

/-- The score of a byte string. -/
def workScore (data : Bytes) : Nat :=
  leadingZeroBits (sha256d data).toList

def nonceLength : Nat := 8

/-- An encoding completed by a nonce. -/
def withNonce (head : Bytes) (nonce : UInt64) : Bytes :=
  head ++ leBytes nonceLength nonce.toNat

/-- Whether a nonce gives an encoding the score that is asked for. -/
def reaches (head : Bytes) (target : UInt32) (nonce : UInt64) : Bool :=
  target.toNat ≤ workScore (withNonce head nonce)

end LedgerWatch
