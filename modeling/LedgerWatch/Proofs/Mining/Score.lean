import LedgerWatch.Mining.Score
import Mathlib.Algebra.Group.Nat.Defs
import Mathlib.Data.Nat.Size

/-!
# Scores are thresholds

A hash read as a number, its highest byte first, begins with the more zero bits the smaller it is:
together, its leading zeros and the bits of the number are all bits of the hash. So a score is asked
for exactly by bounding that number, and none is above the 256 bits of a hash.

## Main definitions

- `beValue`: the number that bytes stand for, the highest first

## Main results

- `leadingZeroBits_add_size`: the bits of a byte string are its leading zeros and those of its value
- `le_leadingZeroBits_iff`: how small a value is that has so many leading zeros
- `leadingZeroBits_threshold`: the scores of hashes
-/

namespace LedgerWatch

/-- The number whose digits to base 256, highest first, are the given bytes. -/
def beValue (bs : Bytes) : Nat := leValue bs.reverse

theorem leValue_append (low high : Bytes) :
    leValue (low ++ high) = leValue low + 2 ^ (8 * low.length) * leValue high := by
  induction low with
  | nil => simp [leValue]
  | cons b low ih =>
    have hpow : 2 ^ (8 * (low.length + 1)) = 256 * 2 ^ (8 * low.length) := by
      rw [Nat.mul_succ, Nat.pow_add, Nat.mul_comm]
    rw [List.cons_append, leValue, ih, leValue, List.length_cons, hpow, Nat.mul_add, Nat.mul_assoc]
    omega

theorem beValue_cons (b : UInt8) (bs : Bytes) :
    beValue (b :: bs) = beValue bs + 2 ^ (8 * bs.length) * b.toNat := by
  simp [beValue, leValue_append, leValue]

theorem beValue_lt (bs : Bytes) : beValue bs < 2 ^ (8 * bs.length) := by
  induction bs with
  | nil => simp [beValue, leValue]
  | cons b bs ih =>
    have hb : b.toNat < 256 := b.toNat_lt
    calc beValue (b :: bs) = beValue bs + 2 ^ (8 * bs.length) * b.toNat := beValue_cons b bs
      _ < 2 ^ (8 * bs.length) + 2 ^ (8 * bs.length) * b.toNat := by omega
      _ = 2 ^ (8 * bs.length) * (b.toNat + 1) := by rw [Nat.mul_succ, Nat.add_comm]
      _ ≤ 2 ^ (8 * bs.length) * 2 ^ 8 := Nat.mul_le_mul_left _ hb
      _ = 2 ^ (8 * (b :: bs).length) := by rw [← Nat.pow_add, List.length_cons, Nat.mul_succ]

theorem size_eq_log2_succ {n : Nat} (hn : n ≠ 0) : n.size = n.log2 + 1 :=
  Nat.le_antisymm (Nat.size_le.mpr Nat.lt_log2_self) (Nat.lt_size.mpr (Nat.log2_self_le hn))

/-- The highest digit that is not zero decides on the number of bits. -/
theorem size_add_two_pow_mul {low k n : Nat} (hlow : low < 2 ^ k) (hn : n ≠ 0) :
    (low + 2 ^ k * n).size = k + n.size := by
  apply Nat.le_antisymm
  · rw [Nat.size_le]
    calc low + 2 ^ k * n < 2 ^ k * n + 2 ^ k := by omega
      _ = 2 ^ k * (n + 1) := (Nat.mul_succ _ _).symm
      _ ≤ 2 ^ k * 2 ^ n.size := Nat.mul_le_mul_left _ (Nat.lt_size_self n)
      _ = 2 ^ (k + n.size) := (Nat.pow_add ..).symm
  · rw [size_eq_log2_succ hn, ← Nat.add_assoc, Nat.add_one_le_iff, Nat.lt_size]
    calc 2 ^ (k + n.log2) = 2 ^ k * 2 ^ n.log2 := Nat.pow_add ..
      _ ≤ 2 ^ k * n := Nat.mul_le_mul_left _ (Nat.log2_self_le hn)
      _ ≤ low + 2 ^ k * n := Nat.le_add_left ..

/-- The bits of a byte string are its leading zeros and the bits of its value. -/
theorem leadingZeroBits_add_size (bs : Bytes) :
    leadingZeroBits bs + (beValue bs).size = 8 * bs.length := by
  induction bs with
  | nil => rfl
  | cons b bs ih =>
    rw [leadingZeroBits, beValue_cons, List.length_cons]
    by_cases hzero : b = 0
    · rw [if_pos hzero, hzero, UInt8.toNat_zero, Nat.mul_zero, Nat.add_zero]
      omega
    · have hne : b.toNat ≠ 0 := fun h => hzero (UInt8.toNat_inj.mp h)
      have hlog : b.toNat.log2 < 8 := (Nat.log2_lt hne).mpr b.toNat_lt
      rw [if_neg hzero, size_add_two_pow_mul (beValue_lt bs) hne, size_eq_log2_succ hne]
      omega

/-- A byte string begins with so many zero bits exactly if its value is this small. -/
theorem le_leadingZeroBits_iff {bs : Bytes} {t : Nat} (ht : t ≤ 8 * bs.length) :
    t ≤ leadingZeroBits bs ↔ beValue bs < 2 ^ (8 * bs.length - t) := by
  have hbits := leadingZeroBits_add_size bs
  rw [← Nat.size_le]
  omega

theorem leadingZeroBits_le (bs : Bytes) : leadingZeroBits bs ≤ 8 * bs.length := by
  have hbits := leadingZeroBits_add_size bs
  omega

theorem workScore_le (data : Bytes) : workScore data ≤ 256 := by
  have hle := leadingZeroBits_le (sha256d data).toList
  rwa [Vector.length_toList] at hle

/-- A hash reaches a score exactly if its value is below the threshold of the score, and the highest
score of all is 256. So a target above it is reached by no data, and by no nonce. -/
theorem leadingZeroBits_threshold :
    (∀ (h : Hash) (t : Nat), t ≤ 256 →
      (t ≤ leadingZeroBits h.toList ↔ beValue h.toList < 2 ^ (256 - t))) ∧
    (∀ h : Hash, leadingZeroBits h.toList ≤ 256) ∧
    ∀ target : UInt32, 256 < target.toNat →
      (∀ data : Bytes, workScore data < target.toNat) ∧
      ∀ (head : Bytes) (nonce : UInt64), reaches head target nonce = false := by
  refine ⟨fun h t ht => ?_, fun h => ?_,
    fun target htarget => ⟨fun data => ?_, fun head nonce => ?_⟩⟩
  · have hlength : h.toList.length = 32 := Vector.length_toList
    have hiff : t ≤ leadingZeroBits h.toList ↔
        beValue h.toList < 2 ^ (8 * h.toList.length - t) := le_leadingZeroBits_iff (by omega)
    rwa [hlength] at hiff
  · have hle := leadingZeroBits_le h.toList
    rwa [Vector.length_toList] at hle
  · exact Nat.lt_of_le_of_lt (workScore_le data) htarget
  · exact decide_eq_false (Nat.not_le_of_lt (Nat.lt_of_le_of_lt (workScore_le _) htarget))

/-- A hash with two zero bytes and three more zero bits. -/
def nineteenZeros : Hash := #v[(0x00 : UInt8), 0x00, 0x1F] ++ Vector.replicate 29 (0xFF : UInt8)

theorem leadingZeroBits_threshold_nineteen :
    (19 ≤ leadingZeroBits nineteenZeros.toList ∧ beValue nineteenZeros.toList < 2 ^ 237) ∧
    (¬ 20 ≤ leadingZeroBits nineteenZeros.toList ∧ ¬ beValue nineteenZeros.toList < 2 ^ 236) ∧
    ∀ data : Bytes, workScore data < 257 := by
  obtain ⟨hiff, -, habove⟩ := leadingZeroBits_threshold
  have hscore : leadingZeroBits nineteenZeros.toList = 19 := by decide
  have hreached : 19 ≤ leadingZeroBits nineteenZeros.toList := Nat.le_of_eq hscore.symm
  have hmissed : ¬ 20 ≤ leadingZeroBits nineteenZeros.toList := by rw [hscore]; decide
  exact ⟨⟨hreached, (hiff nineteenZeros 19 (by decide)).mp hreached⟩,
    ⟨hmissed, mt (hiff nineteenZeros 20 (by decide)).mpr hmissed⟩, (habove 257 (by decide)).1⟩

end LedgerWatch
