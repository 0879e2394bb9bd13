import TersePath.Proofs.Number.Conversion

namespace TersePath

namespace Binary64

open Decimal

lemma stripZeros_last (s : Bool) {fuel c : ℕ} (e : ℤ) (hc : c ≠ 0) (hfuel : c < 10 ^ fuel) :
    (stripZeros s fuel c e).coefficient % 10 ≠ 0 := by
  induction fuel generalizing c e with
  | zero => omega
  | succ fuel ih =>
    rw [stripZeros]
    split
    · exact ih _ (by omega) (by omega)
    · assumption

lemma coefficient_searchShortest {s : Bool} {n : ℕ} (hn : Representable n) (hpos : n ≠ 0) :
    (searchShortest (.finite s n hn) s n 17 (leadingPower n)).coefficient ≠ 0 := by
  intro hzero
  obtain ⟨-, hreads⟩ := searchShortest_spec (toBinary64_exact s hn hpos) 17 (leadingPower n)
  rw [Decimal.toBinary64, if_pos (Or.inl hzero), finite.injEq] at hreads
  exact hpos hreads.2.symm

lemma last_toDecimal (x : Binary64) :
    x.toDecimal.value = 0 ∧ x.toDecimal.exponent = 0 ∨ x.toDecimal.coefficient % 10 ≠ 0 := by
  cases x with
  | nan => exact Or.inl ⟨by simp [toDecimal, toDecimal?], rfl⟩
  | infinite s => exact Or.inl ⟨by simp [toDecimal, toDecimal?], rfl⟩
  | finite s n hn =>
    simp only [toDecimal, toDecimal?, Option.getD_some, shortest]
    by_cases hzero : n = 0
    · rw [if_pos hzero]
      refine Or.inl ⟨?_, rfl⟩
      cases s <;> simp [Decimal.value, signed]
    · rw [if_neg hzero]
      exact Or.inr (stripZeros_last s _ (coefficient_searchShortest hn hzero) (lt_pow_of_digitCount _))

lemma not_dvd_signed {d : Decimal} (h : d.coefficient % 10 ≠ 0) : ¬ (10 : ℤ) ∣ d.signed := by
  intro hdvd
  have hcoefficient : 10 ∣ d.signed.natAbs := Int.natCast_dvd.mp hdvd
  rw [natAbs_signed] at hcoefficient
  omega

theorem integer_iff_decimalPlaces_le (x : Binary64) (k : ℕ) :
    (∃ n : ℤ, 10 ^ k * x.toDecimal.value = n) ↔ x.decimalPlaces ≤ k := by
  have hvalue : 10 ^ k * x.toDecimal.value = x.toDecimal.signed * 10 ^ (k + x.toDecimal.exponent) := by
    rw [Decimal.value, zpow_add₀ (by norm_num), zpow_natCast]
    ring
  rw [hvalue, decimalPlaces]
  constructor
  · rintro ⟨n, hn⟩
    rcases x.last_toDecimal with ⟨-, hexponent⟩ | hlast
    · omega
    by_contra hmore
    obtain ⟨j, hj⟩ : ∃ j : ℕ, (k : ℤ) + x.toDecimal.exponent = -(j + 1 : ℕ) :=
      ⟨(-x.toDecimal.exponent - k - 1).toNat, by omega⟩
    rw [hj, zpow_neg, zpow_natCast, mul_inv_eq_iff_eq_mul₀ (by positivity), pow_succ, ← mul_assoc] at hn
    refine not_dvd_signed hlast ⟨n * 10 ^ j, ?_⟩
    rw [mul_comm]
    exact_mod_cast hn
  · intro hle
    obtain ⟨j, hj⟩ : ∃ j : ℕ, (k : ℤ) + x.toDecimal.exponent = j :=
      ⟨((k : ℤ) + x.toDecimal.exponent).toNat, by omega⟩
    refine ⟨x.toDecimal.signed * 10 ^ j, ?_⟩
    rw [hj, zpow_natCast]
    push_cast
    rfl

end Binary64

end TersePath
