import TersePath.Proofs.Number.Conversion

namespace TersePath

namespace Binary64

open Decimal

lemma two_pow_le_roundUnits {k num : ℕ} (h : 2 ^ k ≤ num) : 2 ^ k ≤ roundUnits num 1 := by
  have hnum : num ≠ 0 := (lt_of_lt_of_le (Nat.two_pow_pos k) h).ne'
  have hlog : k ≤ num.log2 := (Nat.le_log2 hnum).mpr h
  have hself : 2 ^ num.log2 ≤ num := Nat.log2_self_le hnum
  have hdvd : spacing num ∣ 2 ^ num.log2 := Nat.pow_dvd_pow 2 (Nat.sub_le _ _)
  have hround : num / spacing num ≤ roundQuotient num (spacing num) := le_roundQuotient _ _
  calc 2 ^ k ≤ 2 ^ num.log2 := Nat.pow_le_pow_right (by norm_num) hlog
    _ = 2 ^ num.log2 / spacing num * spacing num := (Nat.div_mul_cancel hdvd).symm
    _ ≤ num / spacing num * spacing num :=
        Nat.mul_le_mul_right _ (Nat.div_le_div_right hself)
    _ ≤ roundQuotient num (spacing num) * spacing num := Nat.mul_le_mul_right _ hround
    _ = roundUnits num 1 := by simp only [roundUnits, Nat.div_one, one_mul]

lemma units_of_integer {s : Bool} {n : ℤ} {u : ℕ} {hu : Representable u}
    (h : (finite s u hu).value = n) : u = n.natAbs * one ∧ signedUnits s n.natAbs = n := by
  have hz : signedUnits s u = n * (one : ℕ) := by exact_mod_cast Binary64.signedUnits_of_value h
  exact natAbs_of_signedUnits hz

lemma toBinary64_large {s : Bool} {m : ℕ} (hm : 2 ^ 53 ≤ m)
    (hfinite : (⟨s, m, 0⟩ : Decimal).toBinary64.isFinite) :
    2 ^ 53 ≤ |(⟨s, m, 0⟩ : Decimal).toBinary64.value| := by
  have hz : m ≠ 0 := by
    rintro rfl
    norm_num at hm
  have hlow : ¬((digitCount m : ℤ) + 0 < -330) := by omega
  simp only [toBinary64, hz, hlow, or_self, if_false, Int.toNat_zero, neg_zero, pow_zero,
    mul_one] at hfinite ⊢
  split at hfinite
  · simp [isFinite] at hfinite
  · next hhigh =>
    rw [if_neg hhigh, ofRatio]
    split
    · next hlimit =>
      have hpow : 2 ^ (53 + places) = 2 ^ 53 * one := by rw [one, Nat.pow_add]
      have hge : 2 ^ 53 * one ≤ m * one := Nat.mul_le_mul_right _ hm
      rw [← hpow] at hge
      have hround := two_pow_le_roundUnits hge
      rw [hpow] at hround
      refine le_of_le_of_eq ?_ (abs_value_finite s _ ⟨spacing_roundUnits _ _, hlimit⟩).symm
      rw [le_div_iff₀ unitsPerOne_pos, unitsPerOne]
      exact_mod_cast hround
    · next hlimit =>
      rw [ofRatio, dif_neg hlimit] at hfinite
      simp [isFinite] at hfinite

lemma toBinary64_small {d : Decimal} {w : ℤ} (hd : d.value = w) (hfinite : d.toBinary64.isFinite)
    (hsmall : |d.toBinary64.value| < 2 ^ 53) : d.toBinary64.Is w ∧ |w| < 2 ^ 53 := by
  rcases Nat.lt_or_ge w.natAbs (2 ^ 53) with hw | hw
  · refine ⟨toBinary64_integer hd hw.le, ?_⟩
    rw [Int.abs_eq_natAbs]
    exact_mod_cast hw
  · have hcongr : d.toBinary64 = (⟨d.negative, w.natAbs, 0⟩ : Decimal).toBinary64 := by
      refine toBinary64_congr rfl ?_
      rw [hd, abs_value]
      simp [Nat.cast_natAbs]
    rw [hcongr] at hfinite hsmall
    exact absurd (toBinary64_large hw hfinite) (not_le.mpr hsmall)

lemma integer_of_toBinary64 {d : Decimal} {w n : ℤ} (hd : d.value = w) (h : d.toBinary64.Is n)
    (hn : n.natAbs < 2 ^ 53) : w = n := by
  have hsmall : |d.toBinary64.value| < 2 ^ 53 := by
    rw [h.2, ← Int.cast_abs, Int.abs_eq_natAbs]
    exact_mod_cast hn
  exact_mod_cast (toBinary64_small hd h.1 hsmall).1.2.symm.trans h.2

lemma log2_mul_two_pow {m : ℕ} (hm : m ≠ 0) (e : ℕ) : (m * 2 ^ e).log2 = m.log2 + e := by
  rw [Nat.log2_eq_iff (mul_ne_zero hm (by positivity))]
  have hlow := Nat.log2_self_le hm
  have hhigh : m < 2 ^ (m.log2 + 1) := Nat.lt_log2_self
  constructor
  · rw [pow_add]
    exact Nat.mul_le_mul_right _ hlow
  · rw [add_right_comm, pow_add]
    exact Nat.mul_lt_mul_of_pos_right hhigh (by positivity)

lemma leadingPower_of_integer {m : ℕ} (hm : m ≠ 0) (hlt : m < 2 ^ 53) :
    0 ≤ leadingPower (m * one) ∧ leadingPower (m * one) ≤ 16 := by
  have hlog : ((m * one).log2 : ℤ) - places = m.log2 := by
    rw [one, log2_mul_two_pow hm]
    push_cast
    ring
  have hbound : m.log2 < 53 := (Nat.log2_lt hm).mpr hlt
  simp only [leadingPower, hlog]
  split
  · omega
  · omega

lemma find_neighbours_zero {x : Binary64} {s : Bool} {m u : ℕ} (hu : u = m * one)
    (hx : (⟨s, m, 0⟩ : Decimal).toBinary64 = x) :
    (neighbours u 0).find? (readsBack x s 0) = some m := by
  rw [hu]
  have hnear : roundQuotient (m * one * 10 ^ (-(0 : ℤ)).toNat) (one * 10 ^ (0 : ℤ).toNat) = m := by
    rw [neg_zero, Int.toNat_zero, pow_zero, mul_one, mul_one, roundQuotient_mul _ _ one_pos]
  simp only [neighbours, hnear]
  rw [List.find?_cons_of_pos]
  rw [readsBack, decide_eq_true_eq]
  exact hx

/-- The search finds the integer itself before it comes to steps below one. -/
lemma exponent_searchShortest {x : Binary64} {s : Bool} {m u : ℕ} (hu : u = m * one)
    (hx : (⟨s, m, 0⟩ : Decimal).toBinary64 = x) (fuel : ℕ) {e : ℤ} (he : 0 ≤ e) (hfuel : e < fuel) :
    0 ≤ (searchShortest x s u fuel e).exponent := by
  induction fuel generalizing e with
  | zero => omega
  | succ fuel ih =>
    rw [searchShortest_succ]
    rcases eq_or_lt_of_le he with rfl | hpos
    · rw [find_neighbours_zero hu hx]
    · split
      · exact he
      · exact ih (by omega) (by omega)

lemma exists_integer_of_exponent {d : Decimal} (h : 0 ≤ d.exponent) : ∃ w : ℤ, d.value = w := by
  obtain ⟨e, he⟩ := Int.eq_ofNat_of_zero_le h
  refine ⟨d.signed * 10 ^ e, ?_⟩
  rw [Decimal.value, he]
  push_cast
  rw [zpow_natCast]

lemma exponent_stripZeros (s : Bool) (fuel c : ℕ) (e : ℤ) : e ≤ (stripZeros s fuel c e).exponent := by
  induction fuel generalizing c e with
  | zero => exact le_rfl
  | succ fuel ih =>
    rw [stripZeros]
    split
    · exact (Int.le_add_one le_rfl).trans (ih _ _)
    · exact le_rfl

lemma exponent_toDecimal_of_integer {x : Binary64} {n : ℤ} (hx : x.Is n) (hn : n.natAbs < 2 ^ 53) :
    0 ≤ x.toDecimal.exponent := by
  obtain ⟨s, u, hu, rfl⟩ := exists_finite hx.1
  obtain ⟨hunits, -⟩ := units_of_integer hx.2
  simp only [toDecimal, toDecimal?, Option.getD_some]
  rcases Nat.eq_zero_or_pos n.natAbs with hm | hm
  · have hzero : u = 0 := by rw [hunits, hm, zero_mul]
    rw [shortest, if_pos hzero]
  · have hpos : u ≠ 0 := by
      rw [hunits]
      exact mul_ne_zero hm.ne' one_pos.ne'
    obtain ⟨hlow, hhigh⟩ := leadingPower_of_integer hm.ne' hn
    rw [← hunits] at hlow hhigh
    have hread : (⟨s, n.natAbs, 0⟩ : Decimal).toBinary64 = finite s u hu := by
      rw [toBinary64_natural s hn.le, finite.injEq]
      exact ⟨rfl, hunits.symm⟩
    have hsearch := exponent_searchShortest hunits hread 17 hlow (by omega)
    simp only [shortest, if_neg hpos]
    exact hsearch.trans (exponent_stripZeros _ _ _ _)

theorem value_toDecimal_of_integer {x : Binary64} {n : ℤ} (hx : x.Is n) (hn : n.natAbs < 2 ^ 53) :
    x.toDecimal.value = n := by
  obtain ⟨w, hw⟩ := exists_integer_of_exponent (exponent_toDecimal_of_integer hx hn)
  have hread : x.toDecimal.toBinary64.Is n := by rwa [toBinary64_toDecimal hx.1]
  rw [hw, integer_of_toBinary64 hw hread hn]

lemma decimalPlaces_of_integer {x : Binary64} {n : ℤ} (hx : x.Is n) (hn : n.natAbs < 2 ^ 53) :
    x.decimalPlaces = 0 := by
  have hexponent := exponent_toDecimal_of_integer hx hn
  rw [decimalPlaces]
  omega

end Binary64

end TersePath
