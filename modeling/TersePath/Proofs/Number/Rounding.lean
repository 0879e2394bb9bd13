import TersePath.Proofs.Number.Digits

namespace TersePath

/-- Of the numbers with at most `k` digits `r` is the nearest to `q`. If another one is as near, the last
of the `k` digits of `r` is even. -/
structure HalfEven (k : ℕ) (q r : ℚ) : Prop where
  digits : Digits k r
  nearest : ∀ w, Digits k w → |r - q| ≤ |w - q|
  even : ∀ w, Digits k w → |w - q| = |r - q| → w ≠ r →
    ∃ m e : ℤ, 10 ^ (k - 1) ≤ |m| ∧ |m| < 10 ^ k ∧ Even m ∧ r = m * 10 ^ e

lemma HalfEven.bounded {k : ℕ} {q r bound : ℚ} (h : HalfEven k q r) (hbound : Digits k bound)
    (hq : |q| ≤ bound) : |r| ≤ bound := by
  obtain ⟨hlow, hhigh⟩ := abs_le.mp hq
  rw [abs_le]
  constructor
  · by_contra hlt
    have hnear := h.nearest _ hbound.neg
    rw [abs_of_nonpos (by linarith), abs_of_nonpos (by linarith)] at hnear
    linarith
  · by_contra hlt
    have hnear := h.nearest _ hbound
    rw [abs_of_nonneg (by linarith), abs_of_nonneg (by linarith)] at hnear
    linarith

lemma HalfEven.nonneg {k : ℕ} {q r : ℚ} (h : HalfEven k q r) (hq : 0 ≤ q) : 0 ≤ r := by
  have hzero := h.nearest 0 ⟨0, 0, by simp, by simp⟩
  rw [zero_sub, abs_neg, abs_of_nonneg hq, abs_le] at hzero
  linarith

lemma HalfEven.eq_of_digits {k : ℕ} {q r : ℚ} (h : HalfEven k q r) (hq : Digits k q) : r = q := by
  have hnear := h.nearest q hq
  rwa [sub_self, abs_zero, abs_nonpos_iff, sub_eq_zero] at hnear

lemma roundQuotient_error {den : ℕ} (num : ℕ) (hden : 0 < den) :
    |((roundQuotient num den * den : ℕ) : ℤ) - num| * 2 ≤ den ∧
      (|((roundQuotient num den * den : ℕ) : ℤ) - num| * 2 = den → roundQuotient num den % 2 = 0) := by
  have hsplit := Nat.div_add_mod num den
  have hrest := Nat.mod_lt num hden
  have hnext : (num / den + 1) * den = den * (num / den) + den := by ring
  have hsame : num / den * den = den * (num / den) := Nat.mul_comm _ _
  simp only [roundQuotient]
  split
  · rw [hsame, abs_sub_comm, abs_of_nonneg (by omega)]
    omega
  · split
    · rw [hnext, abs_of_nonneg (by omega)]
      omega
    · rcases Nat.mod_two_eq_zero_or_one (num / den) with heven | hodd
      · rw [heven, Nat.add_zero, hsame, abs_sub_comm, abs_of_nonneg (by omega)]
        omega
      · rw [hodd, hnext, abs_of_nonneg (by omega)]
        omega

namespace Decimal

section Step

variable {k : ℕ} {q w : ℚ} {n e : ℤ}

lemma step_le_of_ne {m : ℤ} (h : m ≠ n) (e : ℤ) (q : ℚ) :
    (10 : ℚ) ^ e ≤ |m * 10 ^ e - q| + |n * 10 ^ e - q| := by
  have hstep := ten_zpow_pos e
  have hone : (1 : ℚ) ≤ |(m : ℚ) - n| := by exact_mod_cast Int.one_le_abs (sub_ne_zero.mpr h)
  calc (10 : ℚ) ^ e ≤ |(m : ℚ) - n| * 10 ^ e := le_mul_of_one_le_left hstep.le hone
    _ = |(m : ℚ) * 10 ^ e - n * 10 ^ e| := by
      rw [← sub_mul, abs_mul, abs_of_pos hstep]
    _ ≤ |(m : ℚ) * 10 ^ e - q| + |q - n * 10 ^ e| := abs_sub_le _ _ _
    _ = |(m : ℚ) * 10 ^ e - q| + |n * 10 ^ e - q| := by rw [abs_sub_comm q]

lemma error_le_multiple (herror : |n * 10 ^ e - q| ≤ 10 ^ e / 2) (m : ℤ) :
    |n * 10 ^ e - q| ≤ |m * 10 ^ e - q| := by
  by_cases hm : m = n
  · rw [hm]
  · linarith [step_le_of_ne hm e q]

/-- A number with a smaller last place is nearer to zero than some multiple of the step, and so farther
from what is to be rounded. -/
lemma error_lt_small (hq : 10 ^ k * 10 ^ e ≤ |q|) (herror : |n * 10 ^ e - q| ≤ 10 ^ e / 2)
    (hw : |w| < 10 ^ k * 10 ^ e) : |n * 10 ^ e - q| < |w - q| := by
  obtain ⟨m, hm⟩ : ∃ m : ℤ, |(m : ℚ) * 10 ^ e - q| = |q| - 10 ^ k * 10 ^ e := by
    rcases le_total 0 q with hpos | hneg
    · refine ⟨10 ^ k, ?_⟩
      rw [abs_of_nonneg hpos] at hq ⊢
      push_cast
      rw [abs_sub_comm, abs_of_nonneg (sub_nonneg.mpr hq)]
    · refine ⟨-10 ^ k, ?_⟩
      rw [abs_of_nonpos hneg] at hq ⊢
      push_cast
      rw [abs_of_nonneg (by linarith)]
      ring
  have hgap : |q| - |w| ≤ |w - q| := by
    rw [abs_sub_comm]
    exact abs_sub_abs_le_abs_sub q w
  linarith [error_le_multiple herror m]

lemma exists_carried (hk : k ≠ 0) (hlow : 10 ^ k ≤ |n|) (hhigh : |n| ≤ 10 ^ (k + 1)) (e : ℤ) :
    ∃ m f : ℤ, 10 ^ k ≤ |m| ∧ |m| < 10 ^ (k + 1) ∧ (n : ℚ) * 10 ^ e = m * 10 ^ f ∧ (Even n → Even m) := by
  rcases hhigh.lt_or_eq with hlt | hcarry
  · exact ⟨n, e, hlow, hlt, rfl, id⟩
  -- a carry makes one digit more, a zero that goes into the exponent
  have hpow : (0 : ℤ) < 10 ^ k := by positivity
  have heven : Even ((10 : ℤ) ^ k) := Int.even_pow.mpr ⟨by decide, hk⟩
  obtain ⟨m, rfl, hm, hmeven⟩ : ∃ m, n = m * 10 ∧ |m| = 10 ^ k ∧ Even m := by
    rcases (abs_eq (by positivity)).mp hcarry with rfl | rfl
    · exact ⟨10 ^ k, pow_succ 10 k, abs_of_pos hpow, heven⟩
    · exact ⟨-10 ^ k, by rw [pow_succ, neg_mul], by rw [abs_neg, abs_of_pos hpow], heven.neg⟩
  refine ⟨m, e + 1, hm.ge, ?_, ?_, fun _ => hmeven⟩
  · rw [hm, pow_succ]
    omega
  · rw [zpow_add₀ (by norm_num), zpow_one]
    push_cast
    ring

lemma halfEven_of_error (hk : k ≠ 0) (hq : 10 ^ k * 10 ^ e ≤ |q|)
    (hlow : 10 ^ k ≤ |n|) (hhigh : |n| ≤ 10 ^ (k + 1)) (herror : |n * 10 ^ e - q| ≤ 10 ^ e / 2)
    (htie : |n * 10 ^ e - q| = 10 ^ e / 2 → Even n) :
    HalfEven (k + 1) q (n * 10 ^ e) := by
  obtain ⟨m, f, hmlow, hmhigh, hm, heven⟩ := exists_carried hk hlow hhigh e
  have hsplit : ∀ w, Digits (k + 1) w → |w| < 10 ^ k * 10 ^ e ∨ ∃ m : ℤ, w = m * 10 ^ e := fun w hw =>
    (lt_or_ge |w| _).imp_right (exists_multiple hw)
  refine ⟨⟨m, f, hmhigh, hm⟩, fun w hw => ?_, fun w hw hsame hne => ?_⟩
  · rcases hsplit w hw with hsmall | ⟨i, rfl⟩
    · exact (error_lt_small hq herror hsmall).le
    · exact error_le_multiple herror i
  · rcases hsplit w hw with hsmall | ⟨i, rfl⟩
    · exact absurd hsame (error_lt_small hq herror hsmall).ne'
    · have hi : i ≠ n := by
        rintro rfl
        exact hne rfl
      have hfar := step_le_of_ne hi e q
      refine ⟨m, f, hmlow, hmhigh, heven (htie ?_), hm⟩
      linarith

end Step

lemma rounded_cases (x : Decimal) : x.coefficient < 10 ^ 28 ∧ x.rounded = x ∨
    ∃ k : ℕ, 10 ^ (27 + k) ≤ x.coefficient ∧ x.coefficient < 10 ^ (28 + k) ∧
      x.rounded = ⟨x.negative, roundQuotient x.coefficient (10 ^ k), x.exponent + k⟩ := by
  have hdigits := lt_pow_of_digitCount x.coefficient
  by_cases hk : digitCount x.coefficient - precision = 0
  · have hshort : digitCount x.coefficient ≤ 28 := Nat.sub_eq_zero_iff_le.mp hk
    exact Or.inl ⟨hdigits.trans_le (Nat.pow_le_pow_right (by norm_num) hshort), by simp [rounded, hk]⟩
  · have hlong : digitCount x.coefficient = 28 + (digitCount x.coefficient - precision) := by
      rw [precision] at hk ⊢
      omega
    refine Or.inr ⟨digitCount x.coefficient - precision, pow_le_of_digitCount (by omega) ?_, ?_, ?_⟩
    · omega
    · rwa [← hlong]
    · simp only [rounded, if_neg hk]

lemma error_rounded (x : Decimal) (n k : ℕ) :
    |(⟨x.negative, n, x.exponent + k⟩ : Decimal).value - x.value| =
      |((n * 10 ^ k : ℕ) : ℤ) - x.coefficient| * 10 ^ x.exponent := by
  rw [Int.cast_abs, ← abs_of_pos (ten_zpow_pos x.exponent), ← abs_mul]
  cases hs : x.negative with
  | false =>
    congr 1
    simp only [value, signed, hs, ten_zpow_add, Bool.false_eq_true, if_false]
    push_cast
    ring
  | true =>
    rw [← abs_neg]
    congr 1
    simp only [value, signed, hs, ten_zpow_add, if_true]
    push_cast
    ring

lemma halfEven_of_coefficient {x : Decimal} {n k : ℕ} (hx : 10 ^ 27 * 10 ^ k ≤ x.coefficient)
    (hlow : 10 ^ 27 ≤ n) (hhigh : n ≤ 10 ^ 28)
    (herror : |((n * 10 ^ k : ℕ) : ℤ) - x.coefficient| * 2 ≤ (10 ^ k : ℕ))
    (heven : |((n * 10 ^ k : ℕ) : ℤ) - x.coefficient| * 2 = (10 ^ k : ℕ) → n % 2 = 0) :
    HalfEven 28 x.value (⟨x.negative, n, x.exponent + k⟩ : Decimal).value := by
  have hpos := ten_zpow_pos x.exponent
  have hvalue := error_rounded x n k
  generalize hr : (⟨x.negative, n, x.exponent + k⟩ : Decimal) = r at hvalue ⊢
  have hsize : |r.signed| = n := by rw [Int.abs_eq_natAbs, natAbs_signed, ← hr]
  have hexponent : (10 : ℚ) ^ r.exponent = 10 ^ k * 10 ^ x.exponent := by rw [← hr, ten_zpow_add]
  refine halfEven_of_error (k := 27) (by norm_num) ?_ ?_ ?_ ?_ ?_
  · rw [abs_value, hexponent, ← mul_assoc]
    exact mul_le_mul_of_nonneg_right (by exact_mod_cast hx) hpos.le
  · rw [hsize]
    exact_mod_cast hlow
  · rw [hsize]
    exact_mod_cast hhigh
  · have herror' : ((|((n * 10 ^ k : ℕ) : ℤ) - x.coefficient| : ℤ) : ℚ) * 2 ≤ 10 ^ k := by
      exact_mod_cast herror
    refine hvalue.trans_le ?_
    rw [hexponent]
    linarith [mul_le_mul_of_nonneg_right herror' hpos.le]
  · intro htie
    have hhalf : ((|((n * 10 ^ k : ℕ) : ℤ) - x.coefficient| : ℤ) : ℚ) = 10 ^ k / 2 := by
      refine mul_right_cancel₀ hpos.ne' (hvalue.symm.trans (htie.trans ?_))
      rw [hexponent, mul_div_right_comm]
    rw [eq_div_iff two_ne_zero] at hhalf
    rw [← Int.natAbs_even, natAbs_signed, ← hr]
    exact Nat.even_iff.mpr (heven (by exact_mod_cast hhalf))

/-- A result is rounded to 28 digits, a tie going to the even digit. -/
theorem halfEven_rounded (x : Decimal) : HalfEven 28 x.value x.rounded.value := by
  rcases rounded_cases x with ⟨hshort, hsame⟩ | ⟨k, hlow, hhigh, hround⟩
  · rw [hsame]
    have hdigits : Digits 28 x.value := by
      refine ⟨x.signed, x.exponent, ?_, rfl⟩
      rw [Int.abs_eq_natAbs, natAbs_signed]
      exact_mod_cast hshort
    refine ⟨hdigits, fun w _ => by simp, fun w _ hzero hne => absurd ?_ hne⟩
    rwa [sub_self, abs_zero, abs_eq_zero, sub_eq_zero] at hzero
  · have hstep : 0 < 10 ^ k := by positivity
    obtain ⟨herror, heven⟩ := roundQuotient_error x.coefficient hstep
    rw [pow_add] at hlow hhigh
    have hdivlow : 10 ^ 27 ≤ x.coefficient / 10 ^ k := (Nat.le_div_iff_mul_le hstep).mpr hlow
    have hdivhigh : x.coefficient / 10 ^ k < 10 ^ 28 := (Nat.div_lt_iff_lt_mul hstep).mpr hhigh
    rw [hround]
    exact halfEven_of_coefficient hlow (hdivlow.trans (le_roundQuotient _ _))
      ((roundQuotient_le _ _).trans hdivhigh) herror heven

lemma signed_natAbs (n e : ℤ) : (⟨decide (n < 0), n.natAbs, e⟩ : Decimal).signed = n :=
  signed_ofInt n

lemma exists_add (x y : Decimal) : ∃ z : Decimal, x + y = z.rounded ∧
    z.value = x.value + y.value ∧ z.exponent = min x.exponent y.exponent := by
  refine ⟨_, rfl, ?_, rfl⟩
  rw [value_of_signed (signed_natAbs _ _), ← value_alignedTo (min_le_left x.exponent y.exponent),
    ← value_alignedTo (min_le_right x.exponent y.exponent)]
  push_cast
  ring

theorem halfEven_add (x y : Decimal) : HalfEven 28 (x.value + y.value) (x + y).value := by
  obtain ⟨z, hz, hvalue, -⟩ := exists_add x y
  rw [hz, ← hvalue]
  exact halfEven_rounded z

theorem halfEven_mul (x y : Decimal) : HalfEven 28 (x.value * y.value) (x * y).value := by
  have hexact : (⟨x.negative ^^ y.negative, x.coefficient * y.coefficient,
      x.exponent + y.exponent⟩ : Decimal).value = x.value * y.value := by
    simp only [value, signed, zpow_add₀ (show (10 : ℚ) ≠ 0 by norm_num)]
    cases x.negative <;> cases y.negative <;> simp <;> ring
  rw [← hexact]
  exact halfEven_rounded _

lemma value_add {x y : Decimal} (h : Digits 28 (x.value + y.value)) :
    (x + y).value = x.value + y.value :=
  (halfEven_add x y).eq_of_digits h

lemma value_sub {x y : Decimal} (h : Digits 28 (x.value - y.value)) :
    (x - y).value = x.value - y.value := by
  have hneg : x.value + y.neg.value = x.value - y.value := by rw [value_neg, sub_eq_add_neg]
  rw [← hneg] at h ⊢
  exact value_add h

lemma value_mul {x y : Decimal} (h : Digits 28 (x.value * y.value)) :
    (x * y).value = x.value * y.value :=
  (halfEven_mul x y).eq_of_digits h

end Decimal

end TersePath
