import TersePath.Proofs.Number.Value
import TersePath.Number.Decimal

namespace TersePath

/-- Numbers that are written with at most `k` digits and a power of ten. -/
def Digits (k : ℕ) (q : ℚ) : Prop := ∃ m e : ℤ, |m| < 10 ^ k ∧ q = m * 10 ^ e

lemma digits_of_den {k : ℕ} {q : ℚ} (h : (10 * q).den = 1 ∧ |10 * q| < 10 ^ k) : Digits k q := by
  obtain ⟨hden, hsmall⟩ := h
  have hq : (10 * q : ℚ) = (10 * q).num := (Rat.coe_int_num_of_den_eq_one hden).symm
  refine ⟨(10 * q).num, -1, ?_, ?_⟩
  · rw [hq] at hsmall
    exact_mod_cast hsmall
  · rw [← hq, zpow_neg_one]
    ring

lemma Digits.mono {j k : ℕ} {q : ℚ} (h : Digits j q) (hjk : j ≤ k) : Digits k q := by
  obtain ⟨m, e, hm, rfl⟩ := h
  exact ⟨m, e, hm.trans_le (pow_le_pow_right₀ (by norm_num) hjk), rfl⟩

lemma Digits.neg {k : ℕ} {q : ℚ} (h : Digits k q) : Digits k (-q) := by
  obtain ⟨m, e, hm, rfl⟩ := h
  exact ⟨-m, e, by rwa [abs_neg], by push_cast; ring⟩

namespace Decimal

def value (x : Decimal) : ℚ := x.signed * 10 ^ x.exponent

lemma ten_zpow_pos (e : ℤ) : (0 : ℚ) < 10 ^ e := zpow_pos (by norm_num) e

lemma ten_zpow_ne (e : ℤ) : (10 : ℚ) ^ e ≠ 0 := (ten_zpow_pos e).ne'

@[simp] lemma signed_ofInt (n : ℤ) : (ofInt n).signed = n := by
  by_cases h : n < 0
  · simp only [ofInt, signed, h, decide_true, if_true]
    omega
  · simp only [ofInt, signed, h, decide_false, Bool.false_eq_true, if_false]
    omega

@[simp] lemma value_ofInt (n : ℤ) : (ofInt n).value = n := by
  rw [value, signed_ofInt]
  simp [ofInt]

lemma natAbs_signed (x : Decimal) : x.signed.natAbs = x.coefficient := by
  cases h : x.negative <;> simp [signed, h]

@[simp] lemma value_neg (x : Decimal) : x.neg.value = -x.value := by
  cases h : x.negative <;> simp [value, neg, signed, h]

lemma abs_value (x : Decimal) : |x.value| = x.coefficient * 10 ^ x.exponent := by
  rw [value, abs_mul, abs_of_pos (ten_zpow_pos _)]
  congr 1
  rw [← natAbs_signed x, Nat.cast_natAbs, Int.cast_abs]

lemma value_of_signed {x : Decimal} {n : ℤ} (h : x.signed = n) : x.value = n * 10 ^ x.exponent := by
  rw [value, h]

lemma ten_zpow_split {a b : ℤ} (h : b ≤ a) : (10 : ℚ) ^ a = 10 ^ (a - b).toNat * 10 ^ b := by
  have hn : (((a - b).toNat : ℕ) : ℤ) = a - b := Int.toNat_of_nonneg (by omega)
  rw [← zpow_natCast, hn, ← zpow_add₀ (by norm_num), sub_add_cancel]

lemma ten_zpow_add (e : ℤ) (n : ℕ) : (10 : ℚ) ^ (e + (n : ℤ)) = 10 ^ n * 10 ^ e := by
  rw [zpow_add₀ (by norm_num), zpow_natCast, mul_comm]

lemma value_alignedTo {x : Decimal} {e : ℤ} (h : e ≤ x.exponent) :
    (x.alignedTo e : ℚ) * 10 ^ e = x.value := by
  rw [alignedTo, value, ten_zpow_split h]
  push_cast
  ring

lemma value_nonneg_of {x : Decimal} (h : x.negative = false) : 0 ≤ x.value := by
  have := ten_zpow_pos x.exponent
  rw [value, signed, h]
  simp only [Bool.false_eq_true, if_false, Int.cast_natCast]
  positivity

lemma place_le {k : ℕ} {m e f : ℤ} (hm : |m| < 10 ^ (k + 1))
    (h : 10 ^ k * 10 ^ f ≤ |(m : ℚ) * 10 ^ e|) : f ≤ e := by
  by_contra hlt
  have hstep : (10 : ℚ) ^ e ≤ 10 ^ (f - 1) := zpow_le_zpow_right₀ (by norm_num) (by omega)
  have hm' : |(m : ℚ)| < 10 ^ (k + 1) := by exact_mod_cast hm
  have hsmall : |(m : ℚ) * 10 ^ e| < 10 ^ k * 10 ^ f := by
    rw [abs_mul, abs_of_pos (ten_zpow_pos e)]
    calc |(m : ℚ)| * 10 ^ e < 10 ^ (k + 1) * 10 ^ e := mul_lt_mul_of_pos_right hm' (ten_zpow_pos e)
      _ ≤ 10 ^ (k + 1) * 10 ^ (f - 1) := mul_le_mul_of_nonneg_left hstep (by positivity)
      _ = 10 ^ k * 10 ^ f := by
        rw [zpow_sub₀ (by norm_num), zpow_one, pow_succ]
        ring
  linarith

lemma exists_multiple {k : ℕ} {w : ℚ} {e : ℤ} (h : Digits (k + 1) w) (hw : 10 ^ k * 10 ^ e ≤ |w|) :
    ∃ n : ℤ, w = n * 10 ^ e := by
  obtain ⟨m, f, hm, rfl⟩ := h
  refine ⟨m * 10 ^ (f - e).toNat, ?_⟩
  rw [ten_zpow_split (place_le hm hw)]
  push_cast
  ring

lemma pow_le_of_digitCount {n k : ℕ} (hk : 0 < k) (h : k < digitCount n) : 10 ^ k ≤ n := by
  by_contra hn
  have hle : digitCount n ≤ k := (digitCount_le_iff hk).mpr (Nat.lt_of_not_le hn)
  omega

lemma lt_pow_of_digitCount (n : ℕ) : n < 10 ^ digitCount n :=
  (digitCount_le_iff (Nat.length_toDigits_pos)).mp le_rfl

lemma leading_le_iff (x : Decimal) (n : ℕ) :
    x.coefficient = 0 ∨ x.exponent + digitCount x.coefficient ≤ n ↔ |x.value| < 10 ^ n := by
  have hstep := ten_zpow_pos x.exponent
  rw [abs_value, ← zpow_natCast]
  constructor
  · rintro (hzero | hle)
    · rw [hzero, Nat.cast_zero, zero_mul]
      exact ten_zpow_pos n
    · have hcoefficient : (x.coefficient : ℚ) < 10 ^ digitCount x.coefficient := by
        exact_mod_cast lt_pow_of_digitCount x.coefficient
      calc (x.coefficient : ℚ) * 10 ^ x.exponent
        _ < 10 ^ digitCount x.coefficient * 10 ^ x.exponent := mul_lt_mul_of_pos_right hcoefficient hstep
        _ = 10 ^ (x.exponent + digitCount x.coefficient) := (ten_zpow_add _ _).symm
        _ ≤ 10 ^ (n : ℤ) := zpow_le_zpow_right₀ (by norm_num) hle
  · intro hlt
    by_contra! hlarge
    obtain ⟨hne, hleading⟩ := hlarge
    obtain ⟨k, hk⟩ : ∃ k, digitCount x.coefficient = k + 1 :=
      Nat.exists_eq_succ_of_ne_zero (Nat.length_toDigits_pos).ne'
    have hcoefficient : (10 : ℚ) ^ k ≤ x.coefficient := by
      rcases Nat.eq_zero_or_pos k with rfl | hpos
      · rw [pow_zero]
        exact_mod_cast Nat.one_le_iff_ne_zero.mpr hne
      · exact_mod_cast pow_le_of_digitCount hpos (by omega)
    refine hlt.not_ge ?_
    calc (10 : ℚ) ^ (n : ℤ) ≤ 10 ^ (x.exponent + k) := zpow_le_zpow_right₀ (by norm_num) (by omega)
      _ = 10 ^ k * 10 ^ x.exponent := ten_zpow_add _ _
      _ ≤ x.coefficient * 10 ^ x.exponent := mul_le_mul_of_nonneg_right hcoefficient hstep.le

theorem inRange_iff (x : Decimal) : x.inRange = true ↔ |x.value| < 10 ^ rangePower := by
  rw [inRange, Bool.or_eq_true, beq_iff_eq, decide_eq_true_iff, leading_le_iff]

end Decimal

end TersePath
