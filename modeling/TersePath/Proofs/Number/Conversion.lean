import TersePath.Proofs.Number.Digits
import TersePath.Number.Scaling

namespace TersePath

lemma roundQuotient_mul_right (num den : ℕ) {k : ℕ} (hk : 0 < k) :
    roundQuotient (num * k) (den * k) = roundQuotient num den := by
  have hlow : 2 * (num % den * k) < den * k ↔ 2 * (num % den) < den := by
    rw [← mul_assoc]
    exact Nat.mul_lt_mul_right hk
  have hhigh : den * k < 2 * (num % den * k) ↔ den < 2 * (num % den) := by
    rw [← mul_assoc]
    exact Nat.mul_lt_mul_right hk
  simp only [roundQuotient, Nat.mul_div_mul_right _ _ hk, Nat.mul_mod_mul_right, hlow, hhigh]

namespace Binary64

lemma roundUnits_mul_right (num den : ℕ) {k : ℕ} (hk : 0 < k) :
    roundUnits (num * k) (den * k) = roundUnits num den := by
  simp only [roundUnits, Nat.mul_div_mul_right _ _ hk]
  rw [mul_right_comm, roundQuotient_mul_right _ _ hk]

lemma ofRatio_congr (s : Bool) {num den num' den' : ℕ} (hden : 0 < den) (hden' : 0 < den')
    (h : num * den' = num' * den) : ofRatio s num den = ofRatio s num' den' := by
  have hunits : roundUnits num den = roundUnits num' den' := by
    rw [← roundUnits_mul_right num den hden', ← roundUnits_mul_right num' den' hden, h,
      mul_comm den' den]
  simp only [ofRatio, hunits]

end Binary64

namespace Decimal

open Binary64

lemma ten_zpow_eq_div (e : ℤ) :
    (10 : ℚ) ^ e = ((10 ^ e.toNat : ℕ) : ℚ) / ((10 ^ (-e).toNat : ℕ) : ℚ) := by
  rcases le_total 0 e with h | h
  · obtain ⟨n, rfl⟩ := Int.eq_ofNat_of_zero_le h
    simp
  · obtain ⟨n, hn⟩ := Int.eq_ofNat_of_zero_le (neg_nonneg.mpr h)
    rw [show e = -(n : ℤ) by omega]
    simp

lemma ratio_eq {x y : Decimal} (h : |x.value| = |y.value|) :
    x.coefficient * 10 ^ x.exponent.toNat * one * 10 ^ (-y.exponent).toNat =
      y.coefficient * 10 ^ y.exponent.toNat * one * 10 ^ (-x.exponent).toNat := by
  rw [abs_value, abs_value, ten_zpow_eq_div, ten_zpow_eq_div] at h
  have hx : ((10 ^ (-x.exponent).toNat : ℕ) : ℚ) ≠ 0 := by positivity
  have hy : ((10 ^ (-y.exponent).toNat : ℕ) : ℚ) ≠ 0 := by positivity
  rw [← mul_div_assoc, ← mul_div_assoc, div_eq_div_iff hx hy] at h
  have hnat : x.coefficient * 10 ^ x.exponent.toNat * 10 ^ (-y.exponent).toNat =
      y.coefficient * 10 ^ y.exponent.toNat * 10 ^ (-x.exponent).toNat := by exact_mod_cast h
  rw [mul_right_comm _ one, hnat, mul_right_comm _ one]

lemma lead_bounds {x : Decimal} (hx : x.coefficient ≠ 0) :
    (10 : ℚ) ^ ((digitCount x.coefficient : ℤ) + x.exponent - 1) ≤ |x.value| ∧
      |x.value| < 10 ^ ((digitCount x.coefficient : ℤ) + x.exponent) := by
  obtain ⟨n, hn⟩ : ∃ n, digitCount x.coefficient = n + 1 :=
    Nat.exists_eq_succ_of_ne_zero (Nat.ne_of_gt Nat.length_toDigits_pos)
  have hlow : 10 ^ n ≤ x.coefficient := by
    rcases Nat.eq_zero_or_pos n with rfl | hpos
    · rw [pow_zero]
      exact Nat.pos_of_ne_zero hx
    · exact pow_le_of_digitCount hpos (by omega)
  have hhigh := lt_pow_of_digitCount x.coefficient
  rw [hn] at hhigh
  rw [abs_value, hn]
  constructor
  · rw [show (((n + 1 : ℕ) : ℤ) + x.exponent - 1) = n + x.exponent by push_cast; ring,
      zpow_add₀ (by norm_num), zpow_natCast]
    exact mul_le_mul_of_nonneg_right (by exact_mod_cast hlow) (ten_zpow_pos _).le
  · rw [zpow_add₀ (by norm_num), zpow_natCast]
    exact mul_lt_mul_of_pos_right (by exact_mod_cast hhigh) (ten_zpow_pos _)

lemma lead_eq {x y : Decimal} (hx : x.coefficient ≠ 0) (hy : y.coefficient ≠ 0)
    (h : |x.value| = |y.value|) :
    (digitCount x.coefficient : ℤ) + x.exponent = digitCount y.coefficient + y.exponent := by
  obtain ⟨hx1, hx2⟩ := lead_bounds hx
  obtain ⟨hy1, hy2⟩ := lead_bounds hy
  rw [h] at hx1 hx2
  have h1 := (zpow_lt_zpow_iff_right₀ (show (1 : ℚ) < 10 by norm_num)).mp (hx1.trans_lt hy2)
  have h2 := (zpow_lt_zpow_iff_right₀ (show (1 : ℚ) < 10 by norm_num)).mp (hy1.trans_lt hx2)
  omega

lemma coefficient_eq_zero_iff {x : Decimal} : x.coefficient = 0 ↔ |x.value| = 0 := by
  rw [abs_value, mul_eq_zero, or_iff_left (ten_zpow_ne _), Nat.cast_eq_zero]

theorem toBinary64_congr {x y : Decimal} (hs : x.negative = y.negative)
    (hv : |x.value| = |y.value|) : x.toBinary64 = y.toBinary64 := by
  by_cases hx : x.coefficient = 0
  · have hy : y.coefficient = 0 := by
      rw [coefficient_eq_zero_iff] at hx ⊢
      rw [← hv, hx]
    simp [toBinary64, hx, hy, hs]
  · have hy : ¬y.coefficient = 0 := by
      rw [coefficient_eq_zero_iff] at hx ⊢
      rwa [← hv]
    simp only [toBinary64, hx, hy, false_or, lead_eq hx hy hv, hs]
    split
    · rfl
    · split
      · rfl
      · exact ofRatio_congr _ (by positivity) (by positivity) (ratio_eq hv)

lemma signedUnits_of_value {x : Decimal} {n : ℤ} (h : x.value = n) :
    signedUnits x.negative n.natAbs = n := by
  cases hs : x.negative with
  | false =>
    have hn : (0 : ℚ) ≤ n := h ▸ value_nonneg_of hs
    have hn' : 0 ≤ n := by exact_mod_cast hn
    simp only [signedUnits, Bool.false_eq_true, if_false]
    omega
  | true =>
    have hneg : 0 ≤ x.neg.value := value_nonneg_of (by simp [neg, hs])
    rw [value_neg, h] at hneg
    have hn' : n ≤ 0 := by exact_mod_cast neg_nonneg.mp hneg
    simp only [signedUnits, if_true]
    omega

lemma toBinary64_natural (s : Bool) {n : ℕ} (hn : n ≤ 2 ^ 53) :
    (⟨s, n, 0⟩ : Decimal).toBinary64 = .finite s (n * one) (representable_mul_one hn) := by
  have hcount : digitCount n ≤ 16 := (digitCount_le_iff (by norm_num)).mpr (hn.trans_lt (by norm_num))
  by_cases hz : n = 0
  · subst hz
    simp [toBinary64]
  · have hlow : ¬((digitCount n : ℤ) + 0 < -330) := by omega
    have hhigh : ¬(310 < (digitCount n : ℤ) + 0) := by omega
    simp only [toBinary64, hz, hlow, hhigh, or_self, if_false, Int.toNat_zero, neg_zero, pow_zero,
      mul_one]
    exact ofRatio_integer s hn

theorem toBinary64_integer {x : Decimal} {n : ℤ} (h : x.value = n) (hn : n.natAbs ≤ 2 ^ 53) :
    x.toBinary64.Is n := by
  have hcongr : x.toBinary64 = (⟨x.negative, n.natAbs, 0⟩ : Decimal).toBinary64 := by
    refine toBinary64_congr rfl ?_
    rw [h, abs_value]
    simp [Nat.cast_natAbs]
  rw [hcongr, toBinary64_natural x.negative hn, ← ofRatio_integer _ hn]
  have hnat := value_ofRatio_integer x.negative hn
  rwa [signedUnits_of_value h] at hnat

end Decimal

namespace Binary64

open Decimal

lemma abs_value_finite (s : Bool) (n : ℕ) (hn : Representable n) :
    |(finite s n hn).value| = n / unitsPerOne := by
  rw [value, abs_div, abs_of_pos unitsPerOne_pos]
  cases s <;> simp [signedUnits]

lemma five_mul_two (n e : ℕ) : n * 5 ^ e * 2 ^ e = n * 10 ^ e := by
  rw [mul_assoc, ← mul_pow, show 5 * 2 = 10 from rfl]

lemma units_of_exact (n : ℕ) : n * 5 ^ places * one = n * 10 ^ places := five_mul_two n places

lemma abs_value_exact (s : Bool) (n : ℕ) :
    |(⟨s, n * 5 ^ places, -places⟩ : Decimal).value| = n / unitsPerOne := by
  have hcast : ((n * 5 ^ places : ℕ) : ℚ) * unitsPerOne = n * 10 ^ places := by
    rw [unitsPerOne]
    exact_mod_cast units_of_exact n
  have hten : (10 : ℚ) ^ places ≠ 0 := by positivity
  rw [abs_value, eq_div_iff unitsPerOne_ne, mul_right_comm, hcast]
  simp only [zpow_neg, zpow_natCast]
  rw [mul_assoc, mul_inv_cancel₀ hten, mul_one]

lemma limit_le : limit ≤ 10 ^ 309 * one := by
  have h : (2 : ℕ) ^ range ≤ 10 ^ 309 := by decide +kernel
  have hlimit : limit = 2 ^ range * one := by rw [limit, one, pow_add]
  rw [hlimit]
  exact Nat.mul_le_mul_right one h

lemma one_le : one ≤ 10 ^ 324 := by decide +kernel

lemma toBinary64_exact (s : Bool) {n : ℕ} (hn : Representable n) (hpos : n ≠ 0) :
    (⟨s, n * 5 ^ places, -places⟩ : Decimal).toBinary64 = .finite s n hn := by
  have hc : n * 5 ^ places ≠ 0 := mul_ne_zero hpos (by positivity)
  obtain ⟨hlow, hhigh⟩ := lead_bounds (x := ⟨s, n * 5 ^ places, -places⟩) hc
  rw [abs_value_exact] at hlow hhigh
  dsimp only at hlow hhigh
  have hten : (1 : ℚ) < 10 := by norm_num
  have hhuge : ((digitCount (n * 5 ^ places) : ℤ) + -places) ≤ 310 := by
    have hlt : (n : ℚ) / unitsPerOne < 10 ^ (309 : ℤ) := by
      rw [div_lt_iff₀ unitsPerOne_pos, unitsPerOne]
      exact_mod_cast lt_of_lt_of_le hn.2 limit_le
    have := (zpow_lt_zpow_iff_right₀ hten).mp (hlow.trans_lt hlt)
    omega
  have htiny : -330 ≤ ((digitCount (n * 5 ^ places) : ℤ) + -places) := by
    have hle : (10 : ℚ) ^ (-324 : ℤ) ≤ n / unitsPerOne := by
      rw [le_div_iff₀ unitsPerOne_pos, unitsPerOne, zpow_neg, inv_mul_le_iff₀ (by positivity)]
      have hone : one ≤ 10 ^ 324 * n := one_le.trans (Nat.le_mul_of_pos_right _ (Nat.pos_of_ne_zero hpos))
      exact_mod_cast hone
    have := (zpow_lt_zpow_iff_right₀ hten).mp (hle.trans_lt hhigh)
    omega
  have hplaces : (-(-(places : ℤ))).toNat = places := by simp
  have hzero : (-(places : ℤ)).toNat = 0 := by simp
  simp only [toBinary64, hc, not_lt.mpr htiny, not_lt.mpr hhuge, or_self, if_false, hplaces, hzero]
  have hratio : ofRatio s (n * 5 ^ places * 10 ^ 0 * one) (10 ^ places) = ofRatio s n 1 := by
    refine ofRatio_congr s (by positivity) Nat.one_pos ?_
    rw [pow_zero, mul_one, mul_one]
    exact units_of_exact n
  rw [hratio, ofRatio_units s hn]

lemma stripZeros_spec (s : Bool) (fuel c : ℕ) (e : ℤ) :
    (stripZeros s fuel c e).negative = s ∧
      (stripZeros s fuel c e).value = (⟨s, c, e⟩ : Decimal).value := by
  induction fuel generalizing c e with
  | zero => exact ⟨rfl, rfl⟩
  | succ fuel ih =>
    rw [stripZeros]
    split
    · next hmod =>
      obtain ⟨hs, hv⟩ := ih (c / 10) (e + 1)
      refine ⟨hs, ?_⟩
      obtain ⟨q, rfl⟩ := Nat.dvd_of_mod_eq_zero hmod
      rw [hv, Nat.mul_div_cancel_left q (by norm_num)]
      simp only [Decimal.value, signed, zpow_add₀ (show (10 : ℚ) ≠ 0 by norm_num), zpow_one]
      split
      · push_cast
        ring
      · push_cast
        ring
    · exact ⟨rfl, rfl⟩

lemma searchShortest_zero (x : Binary64) (s : Bool) (n : ℕ) (e : ℤ) :
    searchShortest x s n 0 e = ⟨s, n * 5 ^ places, -places⟩ := rfl

-- the candidates are hidden because their list is a large number to whoever evaluates it
lemma searchShortest_succ (x : Binary64) (s : Bool) (n fuel : ℕ) (e : ℤ) :
    searchShortest x s n (fuel + 1) e =
      match (neighbours n e).find? (readsBack x s e) with
      | some c => ⟨s, c, e⟩
      | none => searchShortest x s n fuel (e - 1) := by
  delta searchShortest searchShortest._f
  generalize neighbours = candidates
  rfl

lemma searchShortest_spec {x : Binary64} {s : Bool} {n : ℕ}
    (hx : (⟨s, n * 5 ^ places, -places⟩ : Decimal).toBinary64 = x) (fuel : ℕ) (e : ℤ) :
    (searchShortest x s n fuel e).negative = s ∧ (searchShortest x s n fuel e).toBinary64 = x := by
  induction fuel generalizing e with
  | zero =>
    rw [searchShortest_zero]
    exact ⟨rfl, hx⟩
  | succ fuel ih =>
    rw [searchShortest_succ]
    split
    · next c hc =>
      have hreads : readsBack x s e c = true := List.find?_some hc
      rw [readsBack, decide_eq_true_eq] at hreads
      exact ⟨rfl, hreads⟩
    · exact ih _

lemma shortest_spec {s : Bool} {n : ℕ} (hn : Representable n) (hpos : n ≠ 0) :
    (shortest s n hn).negative = s ∧ (shortest s n hn).value =
      (searchShortest (.finite s n hn) s n 17 (leadingPower n)).value := by
  obtain ⟨hs, -⟩ := searchShortest_spec (s := s) (n := n) (toBinary64_exact s hn hpos) 17
    (leadingPower n)
  simp only [shortest, if_neg hpos]
  generalize searchShortest (.finite s n hn) s n 17 (leadingPower n) = d at *
  obtain ⟨_, c, e⟩ := d
  obtain rfl := hs
  exact stripZeros_spec _ (digitCount c) c e

/-- The shortest decimal leads back to the number. -/
theorem toBinary64_toDecimal {x : Binary64} (hx : x.isFinite) : x.toDecimal.toBinary64 = x := by
  obtain ⟨s, n, hn, rfl⟩ := exists_finite hx
  simp only [toDecimal, toDecimal?, Option.getD_some]
  by_cases hpos : n = 0
  · subst hpos
    simp [shortest, toBinary64]
  · obtain ⟨hs, hreads⟩ := searchShortest_spec (s := s) (n := n) (toBinary64_exact s hn hpos) 17
      (leadingPower n)
    obtain ⟨hstrip, hvalue⟩ := shortest_spec (s := s) hn hpos
    rw [← hreads]
    exact toBinary64_congr (hstrip.trans hs.symm) (by rw [hvalue])

end Binary64

end TersePath
