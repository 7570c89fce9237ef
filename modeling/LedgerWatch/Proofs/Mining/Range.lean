import LedgerWatch.Mining.Search
import Mathlib.Algebra.Group.Nat.Defs
import Mathlib.Data.Set.Pairwise.Lattice
import Mathlib.Order.CompletePartialOrder

/-!
# The ranges of the workers

The nonces below the last one are dealt out to the workers in ranges of one length, and what the
division leaves over goes to the last worker. None of the numbers involved leaves the 64 bits.

## Main definitions

- `Miner.nonces`: the nonces of a worker's range
- `Miner.ComputesInWord`: the ranges are computed without a carry

## Main results

- `Miner.toNat_rangeStart`, `Miner.toNat_rangeEnd`: the ends of the ranges, as natural numbers
- `Miner.exists_range`: every nonce below the last one is in a range
- `Miner.computesInWord`, `Miner.pairwiseDisjoint_nonces`, `Miner.iUnion_nonces`: how the ranges
  divide the nonces
-/

namespace LedgerWatch.Miner

theorem threads_ofThreads (wanted : UInt64) :
    (ofThreads wanted).threads = if wanted = 0 then 1 else wanted := by
  by_cases h : wanted = 0 <;> simp [ofThreads, h]

variable (m : Miner)

theorem toNat_threads_pos : 0 < m.threads.toNat :=
  UInt64.lt_iff_toNat_lt.mp m.threads_pos

theorem toNat_rangeLength : m.rangeLength.toNat = lastNonce.toNat / m.threads.toNat :=
  UInt64.toNat_div _ _

theorem threads_mul_rangeLength_le :
    m.threads.toNat * m.rangeLength.toNat ≤ lastNonce.toNat := by
  rw [toNat_rangeLength]
  exact Nat.mul_div_le _ _

variable {m} {i : Nat}

theorem toNat_worker (hi : i < m.threads.toNat) : (UInt64.ofNat i).toNat = i :=
  UInt64.toNat_ofNat_of_lt' (Nat.lt_trans hi m.threads.toNat_lt)

/-- All ranges up to one of a worker lie below the last nonce. -/
theorem mul_rangeLength_le (hi : i ≤ m.threads.toNat) :
    i * m.rangeLength.toNat ≤ lastNonce.toNat :=
  Nat.le_trans (Nat.mul_le_mul_right _ hi) m.threads_mul_rangeLength_le

theorem toNat_rangeStart (hi : i < m.threads.toNat) :
    (m.rangeStart (UInt64.ofNat i)).toNat = i * m.rangeLength.toNat := by
  have hle : i * m.rangeLength.toNat ≤ lastNonce.toNat := mul_rangeLength_le (Nat.le_of_lt hi)
  have hlast : lastNonce.toNat = 18446744073709551615 := rfl
  rw [rangeStart, UInt64.toNat_mul, toNat_worker hi, Nat.mod_eq_of_lt (by omega)]

theorem toNat_rangeEnd (hi : i < m.threads.toNat) :
    (m.rangeEnd (UInt64.ofNat i)).toNat =
      if i + 1 = m.threads.toNat then lastNonce.toNat else (i + 1) * m.rangeLength.toNat := by
  have hpred : (m.threads - 1).toNat = m.threads.toNat - 1 :=
    UInt64.toNat_sub_of_le _ _ (UInt64.le_iff_toNat_le.mpr m.toNat_threads_pos)
  have hlast : UInt64.ofNat i = m.threads - 1 ↔ i + 1 = m.threads.toNat := by
    rw [← UInt64.toNat_inj, toNat_worker hi, hpred]
    omega
  rw [rangeEnd]
  by_cases h : i + 1 = m.threads.toNat
  · rw [if_pos (hlast.mpr h), if_pos h]
  · have hle : (i + 1) * m.rangeLength.toNat ≤ lastNonce.toNat := mul_rangeLength_le hi
    have hsum : i * m.rangeLength.toNat + m.rangeLength.toNat = (i + 1) * m.rangeLength.toNat :=
      (Nat.succ_mul _ _).symm
    have hmax : lastNonce.toNat = 18446744073709551615 := rfl
    rw [if_neg (mt hlast.mp h), if_neg h, UInt64.toNat_add, toNat_rangeStart hi, hsum,
      Nat.mod_eq_of_lt (by omega)]

theorem rangeLength_pos (m : Miner) : 0 < m.rangeLength.toNat := by
  rw [toNat_rangeLength]
  exact Nat.div_pos (Nat.le_of_lt_succ m.threads.toNat_lt) m.toNat_threads_pos

theorem rangeStart_lt_rangeEnd (hi : i < m.threads.toNat) :
    m.rangeStart (UInt64.ofNat i) < m.rangeEnd (UInt64.ofNat i) := by
  have hnext : i * m.rangeLength.toNat < (i + 1) * m.rangeLength.toNat :=
    Nat.mul_lt_mul_of_pos_right i.lt_succ_self m.rangeLength_pos
  rw [UInt64.lt_iff_toNat_lt, toNat_rangeStart hi, toNat_rangeEnd hi]
  split
  · exact Nat.lt_of_lt_of_le hnext (mul_rangeLength_le hi)
  · exact hnext

theorem rangeStart_le_rangeEnd (hi : i < m.threads.toNat) :
    m.rangeStart (UInt64.ofNat i) ≤ m.rangeEnd (UInt64.ofNat i) :=
  UInt64.le_of_lt (rangeStart_lt_rangeEnd hi)

/-- The range of a worker ends before that of a later one. -/
theorem rangeEnd_le_rangeStart {j : Nat} (hij : i < j) (hj : j < m.threads.toNat) :
    m.rangeEnd (UInt64.ofNat i) ≤ m.rangeStart (UInt64.ofNat j) := by
  rw [UInt64.le_iff_toNat_le, toNat_rangeEnd (by omega), if_neg (by omega), toNat_rangeStart hj]
  exact Nat.mul_le_mul_right _ hij

/-- Every nonce below the last one is in the range of a worker. -/
theorem exists_range (m : Miner) {nonce : UInt64} (h : nonce < lastNonce) :
    ∃ i < m.threads.toNat,
      m.rangeStart (UInt64.ofNat i) ≤ nonce ∧ nonce < m.rangeEnd (UInt64.ofNat i) := by
  have hlt : nonce.toNat < lastNonce.toNat := UInt64.lt_iff_toNat_lt.mp h
  have hpos : 0 < m.threads.toNat := m.toNat_threads_pos
  -- the quotient names the range, unless it points behind the last one
  by_cases hq : nonce.toNat / m.rangeLength.toNat + 1 < m.threads.toNat
  · refine ⟨nonce.toNat / m.rangeLength.toNat, by omega, ?_, ?_⟩
    · rw [UInt64.le_iff_toNat_le, toNat_rangeStart (by omega)]
      exact Nat.div_mul_le_self _ _
    · rw [UInt64.lt_iff_toNat_lt, toNat_rangeEnd (by omega), if_neg (by omega), Nat.mul_comm]
      exact Nat.lt_mul_div_succ _ m.rangeLength_pos
  · refine ⟨m.threads.toNat - 1, by omega, ?_, ?_⟩
    · rw [UInt64.le_iff_toNat_le, toNat_rangeStart (by omega)]
      calc (m.threads.toNat - 1) * m.rangeLength.toNat
          ≤ nonce.toNat / m.rangeLength.toNat * m.rangeLength.toNat :=
            Nat.mul_le_mul_right _ (by omega)
        _ ≤ nonce.toNat := Nat.div_mul_le_self _ _
    · rwa [UInt64.lt_iff_toNat_lt, toNat_rangeEnd (by omega), if_pos (by omega)]

/-! ## The division of the nonces -/

/-- The nonces of a worker's range. -/
def nonces (m : Miner) (i : Nat) : Set UInt64 :=
  {nonce | m.rangeStart (UInt64.ofNat i) ≤ nonce ∧ nonce < m.rangeEnd (UInt64.ofNat i)}

/-- Nothing is divided by zero, and no difference, product or sum in the ranges leaves the 64
bits. -/
structure ComputesInWord (m : Miner) : Prop where
  /-- It is divided by the number of workers, and one is taken from it. -/
  threads_pos : 0 < m.threads.toNat
  interval_pos : 0 < checkInterval.toNat
  product_lt : ∀ i < m.threads.toNat, i * m.rangeLength.toNat < 2 ^ 64
  /-- The end of the last range is not computed as a sum. -/
  sum_lt : ∀ i, i + 1 < m.threads.toNat →
    (m.rangeStart (UInt64.ofNat i)).toNat + m.rangeLength.toNat < 2 ^ 64

theorem computesInWord (m : Miner) : m.ComputesInWord := by
  have hlast : lastNonce.toNat = 2 ^ 64 - 1 := rfl
  refine ⟨m.toNat_threads_pos, by decide, fun i hi => ?_, fun i hi => ?_⟩
  · have hle : i * m.rangeLength.toNat ≤ lastNonce.toNat := mul_rangeLength_le (Nat.le_of_lt hi)
    omega
  · have hle : (i + 1) * m.rangeLength.toNat ≤ lastNonce.toNat := mul_rangeLength_le (by omega)
    rw [Nat.succ_mul] at hle
    rw [toNat_rangeStart (by omega)]
    omega

theorem nonempty_nonces (hi : i < m.threads.toNat) : (m.nonces i).Nonempty :=
  ⟨m.rangeStart (UInt64.ofNat i), UInt64.le_refl _, rangeStart_lt_rangeEnd hi⟩

theorem pairwiseDisjoint_nonces (m : Miner) :
    (Set.Iio m.threads.toNat).PairwiseDisjoint m.nonces := by
  have happart : ∀ {i j nonce}, i < j → j < m.threads.toNat → nonce ∈ m.nonces i →
      nonce ∉ m.nonces j := by
    intro i j nonce hij hj hi hmem
    exact UInt64.not_lt.mpr (UInt64.le_trans (rangeEnd_le_rangeStart hij hj) hmem.1) hi.2
  intro i hi j hj hne
  refine Set.disjoint_left.mpr fun nonce hmem hmem' => ?_
  rcases Nat.lt_or_gt_of_ne hne with hij | hij
  · exact happart hij hj hmem hmem'
  · exact happart hij hi hmem' hmem

theorem lt_lastNonce_iff {nonce : UInt64} : nonce < lastNonce ↔ nonce.toNat ≤ 2 ^ 64 - 2 := by
  have hlast : lastNonce.toNat = 2 ^ 64 - 1 := rfl
  rw [UInt64.lt_iff_toNat_lt]
  omega

theorem iUnion_nonces (m : Miner) :
    ⋃ i ∈ Set.Iio m.threads.toNat, m.nonces i = {nonce | nonce.toNat ≤ 2 ^ 64 - 2} := by
  ext nonce
  simp only [Set.mem_iUnion, Set.mem_Iio, exists_prop, Set.mem_ofPred_eq, ← lt_lastNonce_iff]
  constructor
  · rintro ⟨i, hi, hmem⟩
    have hend : (m.rangeEnd (UInt64.ofNat i)).toNat ≤ lastNonce.toNat := by
      rw [toNat_rangeEnd hi]
      split
      · exact Nat.le_refl _
      · exact mul_rangeLength_le hi
    exact UInt64.lt_of_lt_of_le hmem.2 (UInt64.le_iff_toNat_le.mpr hend)
  · intro h
    obtain ⟨i, hi, hmem⟩ := m.exists_range h
    exact ⟨i, hi, hmem⟩

end LedgerWatch.Miner
