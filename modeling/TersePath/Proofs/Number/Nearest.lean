import TersePath.Number.Scaling
import TersePath.Proofs.Number.Rounding

/-! Rounding to an integer through a sum that was itself rounded. A number of at most 27 digits goes to the
nearest integer although its sum with one half may need more than 28. -/

namespace TersePath

namespace Decimal

theorem floor_eq (x : Decimal) : x.floor = ⌊x.value⌋ := by
  have hvalue : x.value = ((x.signed * 10 ^ x.exponent.toNat : ℤ) : ℚ) /
      ((10 ^ (-x.exponent).toNat : ℕ) : ℚ) := by
    rw [value]
    push_cast
    rw [mul_div_assoc]
    congr 1
    rcases le_total 0 x.exponent with h | h
    · obtain ⟨n, hn⟩ := Int.eq_ofNat_of_zero_le h
      simp [hn]
    · obtain ⟨n, hn⟩ := Int.eq_ofNat_of_zero_le (neg_nonneg.mpr h)
      rw [show x.exponent = -(n : ℤ) by omega]
      simp
  rw [floor, hvalue, Rat.floor_intCast_div_natCast]
  push_cast
  rfl

lemma abs_le_of_not_digits {m e : ℤ} (hm : |m| < 10 ^ 27) (he : e < 0)
    (hd : ¬Digits 28 (m * 10 ^ e + 1 / 2)) : |(m : ℚ) * 10 ^ e| ≤ 1 / 100 := by
  obtain ⟨n, rfl⟩ : ∃ n : ℕ, e = -(n + 1 : ℤ) := ⟨(-e - 1).toNat, by omega⟩
  have hhalf : (m : ℚ) * 10 ^ (-(n + 1 : ℤ)) + 1 / 2 =
      ((m + 5 * 10 ^ n : ℤ) : ℚ) * 10 ^ (-(n + 1 : ℤ)) := by
    have hne : (10 : ℚ) ^ n ≠ 0 := by positivity
    push_cast
    rw [zpow_neg, zpow_add₀ (by norm_num), zpow_natCast, zpow_one]
    field_simp
    ring
  rcases Nat.lt_or_ge 27 n with hn | hn
  · rw [abs_mul, abs_of_pos (ten_zpow_pos _)]
    have hm' : |(m : ℚ)| ≤ 10 ^ 27 := by exact_mod_cast hm.le
    have hp : (10 : ℚ) ^ (-(n + 1 : ℤ)) ≤ 10 ^ (-29 : ℤ) :=
      zpow_le_zpow_right₀ (by norm_num) (by omega)
    calc |(m : ℚ)| * 10 ^ (-(n + 1 : ℤ)) ≤ 10 ^ 27 * 10 ^ (-29 : ℤ) :=
          mul_le_mul hm' hp (ten_zpow_pos _).le (by norm_num)
      _ = 1 / 100 := by norm_num
  · refine absurd ⟨m + 5 * 10 ^ n, _, ?_, hhalf⟩ hd
    have hp : (10 : ℤ) ^ n ≤ 10 ^ 27 := pow_le_pow_right₀ (by norm_num) hn
    have hp' : (0 : ℤ) < 10 ^ n := by positivity
    rw [abs_lt] at hm ⊢
    constructor <;> linarith

lemma long_cases {w : ℤ} (h : 10 ^ 28 ≤ |10 * w + 5|) : 10 ^ 27 ≤ w ∨ w + 1 ≤ -10 ^ 27 := by
  rw [le_abs] at h
  omega

/-- An even integer and one half, rounded to 28 digits although it has more, is the integer. -/
lemma eq_of_halfEven_add_half {w : ℤ} {r : ℚ} (h : HalfEven 28 (w + 1 / 2) r) (hw : Digits 28 w)
    (heven : Even w) (hlong : 10 ^ 28 ≤ |10 * w + 5|) : r = w := by
  have hhalf : |(w : ℚ) - (w + 1 / 2)| = 1 / 2 := by norm_num
  have hnear := h.nearest w hw
  rw [hhalf, abs_le] at hnear
  obtain ⟨hlow, hhigh⟩ := hnear
  have hsize : (10 : ℚ) ^ 27 * 10 ^ (0 : ℤ) ≤ |r| := by
    rw [zpow_zero, mul_one, le_abs]
    rcases long_cases hlong with hpos | hneg
    · have hpos' : (10 : ℚ) ^ 27 ≤ w := by exact_mod_cast hpos
      exact Or.inl (by linarith)
    · have hneg' : (w : ℚ) + 1 ≤ -10 ^ 27 := by exact_mod_cast hneg
      exact Or.inr (by linarith)
  obtain ⟨n, rfl⟩ : ∃ n : ℤ, r = n := by simpa using exists_multiple h.digits hsize
  have hn : n = w ∨ n = w + 1 := by
    have hfrom : w ≤ n := by exact_mod_cast (by linarith : (w : ℚ) ≤ n)
    have hto : n ≤ w + 1 := by exact_mod_cast (by linarith : (n : ℚ) ≤ w + 1)
    omega
  rcases hn with rfl | rfl
  · rfl
  · -- the integer is as near as the next one, which is odd
    obtain ⟨m, e, -, hm, hmeven, hvalue⟩ := h.even w hw (by push_cast; norm_num) (by simp)
    obtain ⟨i, rfl⟩ := Int.eq_ofNat_of_zero_le (place_le hm (hvalue ▸ hsize))
    have hnext : w + 1 = m * 10 ^ i := by exact_mod_cast hvalue
    exact absurd (hnext ▸ hmeven.mul_right _) (Int.not_even_iff_odd.mpr heven.add_one)

lemma floor_halfEven {v r : ℚ} (hv : Digits 27 v) (h : HalfEven 28 (v + 1 / 2) r) :
    ⌊r⌋ = ⌊v + 1 / 2⌋ := by
  by_cases hd : Digits 28 (v + 1 / 2)
  · rw [h.eq_of_digits hd]
  have hwide := hv.mono (by norm_num : 27 ≤ 28)
  obtain ⟨m, e, hm, rfl⟩ := hv
  rcases le_or_gt 0 e with hpos | hneg
  · obtain ⟨i, rfl⟩ := Int.eq_ofNat_of_zero_le hpos
    obtain ⟨w, hw⟩ : ∃ w : ℤ, w = m * 10 ^ i := ⟨_, rfl⟩
    have hvalue : (m : ℚ) * 10 ^ (i : ℤ) = w := by
      rw [hw]
      push_cast
      rw [zpow_natCast]
    have hlong : 10 ^ 28 ≤ |10 * w + 5| := by
      by_contra hshort
      refine hd ⟨10 * w + 5, -1, lt_of_not_ge hshort, ?_⟩
      rw [hvalue]
      push_cast
      norm_num
      ring
    have heven : Even w := by
      have hlarge : (10 : ℚ) ^ 26 * 10 ^ (1 : ℤ) ≤ |(m : ℚ) * 10 ^ (i : ℤ)| := by
        have habs : 10 ^ 27 ≤ |w| := le_abs.mpr ((long_cases hlong).imp_right (by omega))
        rw [hvalue, zpow_one, ← pow_succ]
        exact_mod_cast habs
      have hplace := place_le hm hlarge
      rw [hw]
      exact ((by decide : Even (10 : ℤ)).pow_of_ne_zero (by omega)).mul_left m
    rw [hvalue] at h hwide ⊢
    rw [eq_of_halfEven_add_half h hwide heven hlong, Int.floor_intCast]
    refine (Int.floor_eq_iff.mpr ⟨?_, ?_⟩).symm <;> linarith
  · have hsmall := abs_le.mp (abs_le_of_not_digits hm hneg hd)
    have hlow := h.nonneg (by linarith)
    have hedge : Digits 28 (51 / 100) := ⟨51, -2, by norm_num, by norm_num⟩
    have hhigh := abs_le.mp (h.bounded hedge (abs_le.mpr ⟨by linarith, by linarith⟩))
    rw [Int.floor_eq_zero_iff.mpr ⟨hlow, by linarith⟩]
    exact (Int.floor_eq_zero_iff.mpr ⟨by linarith, by linarith⟩).symm

@[simp] lemma value_half : half.value = 1 / 2 := by norm_num [half, value, signed]

lemma halfEven_add_half (x : Decimal) : HalfEven 28 (x.value + 1 / 2) (x + half).value := by
  simpa using halfEven_add x half

theorem nearest_eq {x : Decimal} (h : Digits 27 x.value) : x.nearest = ⌊x.value + 1 / 2⌋ := by
  rw [nearest, floor_eq, floor_halfEven h (halfEven_add_half x)]

lemma abs_le_nines {k j : ℕ} {v : ℚ} (hv : Digits (k + 1) v) (h : |v| < 10 ^ (k + 1 + j)) :
    |v| ≤ (10 ^ (k + 1) - 1) * 10 ^ j := by
  have hstep : (0 : ℚ) < 10 ^ j := by positivity
  have hone : (1 : ℚ) ≤ 10 ^ k := one_le_pow₀ (by norm_num)
  rcases lt_or_ge |v| (10 ^ k * 10 ^ j) with hsmall | hlarge
  · refine hsmall.le.trans (mul_le_mul_of_nonneg_right ?_ hstep.le)
    rw [pow_succ]
    linarith
  · obtain ⟨n, rfl⟩ := exists_multiple (e := j) hv (by exact_mod_cast hlarge)
    rw [zpow_natCast, abs_mul, abs_of_pos hstep] at h ⊢
    rw [pow_add] at h
    have hn : |n| < 10 ^ (k + 1) := by exact_mod_cast lt_of_mul_lt_mul_right h hstep.le
    refine mul_le_mul_of_nonneg_right ?_ hstep.le
    exact_mod_cast Int.le_sub_one_of_lt hn

lemma abs_add_half_le {j : ℕ} {v : ℚ} (hv : Digits 27 v) (h : |v| < 10 ^ (27 + j)) :
    |v + 1 / 2| ≤ (10 ^ 28 - 5) * 10 ^ ((j : ℤ) - 1) := by
  have hstep : (1 : ℚ) ≤ 10 ^ j := one_le_pow₀ (by norm_num)
  calc |v + 1 / 2| ≤ |v| + |1 / 2| := abs_add_le _ _
    _ ≤ (10 ^ 27 - 1) * 10 ^ j + 1 / 2 * 10 ^ j := by
      refine add_le_add (abs_le_nines (k := 26) hv h) ?_
      rw [abs_of_pos (by norm_num)]
      linarith
    _ = (10 ^ 28 - 5) * 10 ^ ((j : ℤ) - 1) := by
      rw [zpow_sub₀ (by norm_num), zpow_natCast, zpow_one]
      ring

lemma abs_add_half_lt {n : ℕ} {x : Decimal} (h : Digits 27 x.value) (hn : 27 ≤ n) (hlt : |x.value| < 10 ^ n) :
    |(x + half).value| < 10 ^ n := by
  obtain ⟨j, rfl⟩ := Nat.exists_eq_add_of_le hn
  have hedge : Digits 28 ((10 ^ 28 - 5) * 10 ^ ((j : ℤ) - 1)) :=
    ⟨10 ^ 28 - 5, j - 1, by norm_num, by norm_num⟩
  calc |(x + half).value| ≤ (10 ^ 28 - 5) * 10 ^ ((j : ℤ) - 1) :=
        (halfEven_add_half x).bounded hedge (abs_add_half_le h hlt)
    _ < 10 ^ 28 * 10 ^ ((j : ℤ) - 1) := mul_lt_mul_of_pos_right (by norm_num) (ten_zpow_pos _)
    _ = 10 ^ (27 + j) := by
      rw [zpow_sub₀ (by norm_num), zpow_natCast, zpow_one]
      ring

lemma digits_ten_pow (n : ℕ) : Digits 28 (10 ^ n) := ⟨1, n, by norm_num, by norm_num⟩

/-- One half brings no number back into range: the power of ten at the edge is nearer than all below it. -/
lemma le_abs_halfEven_add_half {j : ℕ} {v r : ℚ} (hround : HalfEven 28 (v + 1 / 2) r)
    (h : 10 ^ (28 + (j + 1)) ≤ |v|) : 10 ^ (28 + (j + 1)) ≤ |r| := by
  by_contra! hlt
  have hstep : (10 : ℚ) ≤ 10 ^ (j + 1) := by
    rw [pow_succ]
    linarith [one_le_pow₀ (n := j) (by norm_num : (1 : ℚ) ≤ 10)]
  have hnines : |r| ≤ (10 ^ 28 - 1) * 10 ^ (j + 1) := abs_le_nines (k := 27) hround.digits hlt
  obtain ⟨hlow, hhigh⟩ := abs_le.mp hnines
  have hedge := digits_ten_pow (28 + (j + 1))
  rw [pow_add] at h hedge
  generalize (10 : ℚ) ^ (j + 1) = step at *
  rcases le_abs.mp h with hpos | hneg
  · have hnear := hround.nearest _ hedge
    rw [abs_sub_comm, abs_of_nonneg (by linarith)] at hnear
    rcases le_abs.mp hnear with hw | hw
    · linarith
    · linarith
  · have hnear := hround.nearest _ hedge.neg
    have hfar := le_abs_self (r - (v + 1 / 2))
    rcases le_abs.mp (hfar.trans hnear) with hw | hw
    · linarith
    · linarith

/-- The shortcut for what is out of range itself changes nothing. -/
theorem roundHalfUp_eq (x : Decimal) :
    x.roundHalfUp = if (x + half).inRange then .ok x.nearest else .error .decimalOverflow := by
  rw [roundHalfUp]
  cases hrange : x.inRange with
  | true => rw [Bool.true_and]
  | false =>
    have hlarge : (10 : ℚ) ^ rangePower ≤ |x.value| := by
      rw [← not_lt, ← inRange_iff, hrange]
      exact Bool.false_ne_true
    have hsum : (x + half).inRange = false := by
      rw [Bool.eq_false_iff, ne_eq, inRange_iff, not_lt]
      exact le_abs_halfEven_add_half (j := 999971) (halfEven_add_half x) hlarge
    rw [hsum, Bool.false_and]

/-- A number of at most 27 digits goes to the nearest integer, a half going up, as long as it is in range.
Its sum with one half is rounded to 28 digits, a tie going to the even digit. -/
theorem roundHalfUp_of_digits {x : Decimal} (h : Digits 27 x.value) :
    HalfEven 28 (x.value + 1 / 2) (x + half).value ∧
      x.roundHalfUp =
        if |x.value| < 10 ^ rangePower then .ok ⌊x.value + 1 / 2⌋ else .error .decimalOverflow := by
  refine ⟨halfEven_add_half x, ?_⟩
  rw [roundHalfUp]
  by_cases hlt : |x.value| < 10 ^ rangePower
  · have hsum := abs_add_half_lt h (by decide) hlt
    rw [if_pos hlt, (inRange_iff x).mpr hlt, (inRange_iff _).mpr hsum, nearest_eq h]
    rfl
  · have hrange : x.inRange = false := by
      rw [Bool.eq_false_iff, ne_eq, inRange_iff]
      exact hlt
    rw [if_neg hlt, hrange]
    rfl

namespace Example

def longTie : Decimal := ⟨false, 123456789012345678901234567, 1⟩

def edge : Decimal := ⟨false, 1, 1000000⟩

lemma value_longTie : longTie.value = 1234567890123456789012345670 := by
  norm_num [longTie, value, signed]

end Example

/-- The sum 1234567890123456789012345670.5 has 29 digits and is rounded to the even one of two as near. -/
theorem roundHalfUp_of_digits_tie :
    Digits 27 Example.longTie.value ∧
      HalfEven 28 (Example.longTie.value + 1 / 2) (Example.longTie + half).value ∧
      Example.longTie.roundHalfUp = .ok 1234567890123456789012345670 := by
  have hdigits : Digits 27 Example.longTie.value :=
    ⟨123456789012345678901234567, 1, by norm_num, by norm_num [Example.value_longTie]⟩
  obtain ⟨hround, hresult⟩ := roundHalfUp_of_digits hdigits
  have hrange : |Example.longTie.value| < 10 ^ rangePower :=
    (inRange_iff Example.longTie).mp (by decide)
  refine ⟨hdigits, hround, ?_⟩
  rw [hresult, if_pos hrange, Example.value_longTie]
  norm_num

/-- A number of one digit has no nearest integer in range, although it is one. -/
theorem roundHalfUp_edge : Digits 27 Example.edge.value ∧ Example.edge.roundHalfUp = .error .decimalOverflow ∧
    Example.edge.roundHalfUp ≠ .ok ⌊Example.edge.value + 1 / 2⌋ := by
  have hfails : Example.edge.roundHalfUp = .error .decimalOverflow := rfl
  refine ⟨⟨1, 1000000, by norm_num, ?_⟩, hfails, ?_⟩
  · rw [value, Example.edge, signed, if_neg Bool.false_ne_true, Nat.cast_one]
  · intro h
    cases hfails.symm.trans h

end Decimal

end TersePath
