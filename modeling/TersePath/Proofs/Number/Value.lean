import Mathlib
import TersePath.Path.Reflection

namespace TersePath.Binary64

def unitsPerOne : ℚ := (one : ℕ)

def value : Binary64 → ℚ
  | .finite negative units _ => signedUnits negative units / unitsPerOne
  | _ => 0

def Is (x : Binary64) (q : ℚ) : Prop := x.isFinite = true ∧ x.value = q

instance (x : Binary64) (q : ℚ) : Decidable (x.Is q) := inferInstanceAs (Decidable (_ ∧ _))

lemma unitsPerOne_pos : 0 < unitsPerOne := Nat.cast_pos.mpr one_pos

lemma unitsPerOne_ne : unitsPerOne ≠ 0 := ne_of_gt unitsPerOne_pos

lemma exists_finite {x : Binary64} (h : x.isFinite) : ∃ s n hn, x = .finite s n hn := by
  cases x with
  | finite s n hn => exact ⟨s, n, hn, rfl⟩
  | infinite s => simp [isFinite] at h
  | nan => simp [isFinite] at h

@[simp] lemma value_zero : zero.value = 0 := by simp [value, zero, signedUnits]

@[simp] lemma isFinite_zero : zero.isFinite = true := rfl

lemma value_finite_eq_iff {s t : Bool} {m n : ℕ} {hm : Representable m} {hn : Representable n} :
    (finite s m hm).value = (finite t n hn).value ↔ signedUnits s m = signedUnits t n := by
  simp only [value]
  rw [div_left_inj' unitsPerOne_ne]
  exact Int.cast_inj

lemma equals_iff {x y : Binary64} (hx : x.isFinite) (hy : y.isFinite) :
    x.equals y ↔ x.value = y.value := by
  obtain ⟨s, m, hm, rfl⟩ := exists_finite hx
  obtain ⟨t, n, hn, rfl⟩ := exists_finite hy
  rw [value_finite_eq_iff]
  simp [equals]

lemma less_iff {x y : Binary64} (hx : x.isFinite) (hy : y.isFinite) :
    x.less y ↔ x.value < y.value := by
  obtain ⟨s, m, hm, rfl⟩ := exists_finite hx
  obtain ⟨t, n, hn, rfl⟩ := exists_finite hy
  simp only [value, less, decide_eq_true_eq]
  rw [div_lt_div_iff_of_pos_right unitsPerOne_pos]
  exact Int.cast_lt.symm

lemma atMost_iff {x y : Binary64} (hx : x.isFinite) (hy : y.isFinite) :
    x.atMost y ↔ x.value ≤ y.value := by
  rw [atMost, Bool.or_eq_true, less_iff hx hy, equals_iff hx hy, le_iff_lt_or_eq]

lemma isZero_iff {x : Binary64} (hx : x.isFinite) : x.isZero ↔ x.value = 0 := by
  rw [isZero, equals_iff hx rfl, value_zero]

lemma isFinite_of_isZero {x : Binary64} (h : x.isZero) : x.isFinite := by
  cases x with
  | finite s n hn => rfl
  | infinite s => simp [isZero, equals, zero] at h
  | nan => simp [isZero, equals] at h

lemma value_of_isZero {x : Binary64} (h : x.isZero) : x.value = 0 :=
  (isZero_iff (isFinite_of_isZero h)).mp h

lemma isNan_of_isFinite {x : Binary64} (hx : x.isFinite) : x.isNan = false := by
  obtain ⟨s, m, hm, rfl⟩ := exists_finite hx
  rfl

lemma signClass_eq {x : Binary64} (hx : x.isFinite) :
    signClass x = some (if x.value = 0 then 0 else if 0 < x.value then 1 else -1) := by
  have hz := isZero_iff hx
  have hl := less_iff (x := zero) rfl hx
  rw [value_zero] at hl
  simp only [signClass, isNan_of_isFinite hx, Bool.false_eq_true, if_false, hz, hl]
  split
  · rfl
  · split <;> rfl

lemma sameDirection_iff {x y : Binary64} (hx : x.isFinite) (hy : y.isFinite) :
    sameDirection x y ↔ 0 ≤ x.value * y.value := by
  simp only [sameDirection, signClass_eq hx, signClass_eq hy]
  rcases lt_trichotomy x.value 0 with h | h | h <;> rcases lt_trichotomy y.value 0 with h' | h' | h'
  · simp [h.ne, h'.ne, h.not_gt, h'.not_gt, (mul_pos_of_neg_of_neg h h').le]
  · simp [h']
  · simp [h.ne, h'.ne', h.not_gt, h', (mul_neg_of_neg_of_pos h h').not_ge]
  · simp [h]
  · simp [h]
  · simp [h]
  · simp [h.ne', h'.ne, h, h'.not_gt, (mul_neg_of_pos_of_neg h h').not_ge]
  · simp [h']
  · simp [h.ne', h'.ne', h, h', (mul_pos h h').le]

lemma mul_two_pow_le {n : ℕ} (h : n ≤ 2 ^ 53) (e : ℕ) : n * 2 ^ e ≤ 2 ^ (53 + e) := by
  rw [Nat.pow_add]
  exact Nat.mul_le_mul_right _ h

lemma representable_mul_one {n : ℕ} (h : n ≤ 2 ^ 53) : Representable (n * one) := by
  have hsum : n * one ≤ 2 ^ (53 + places) := mul_two_pow_le h places
  refine ⟨spacing_dvd_of_dvd (Nat.dvd_mul_left one n) hsum, lt_of_le_of_lt hsum ?_⟩
  exact Nat.pow_lt_pow_right (by decide) (Nat.add_lt_add_right (by decide) places)

lemma ofRatio_integer (s : Bool) {n : ℕ} (h : n ≤ 2 ^ 53) :
    ofRatio s (n * one) 1 = .finite s (n * one) (representable_mul_one h) :=
  ofRatio_units s (representable_mul_one h)

lemma value_ofRatio_integer (s : Bool) {n : ℕ} (h : n ≤ 2 ^ 53) :
    (ofRatio s (n * one) 1).Is (signedUnits s n) := by
  rw [ofRatio_integer s h]
  refine ⟨rfl, ?_⟩
  simp only [value]
  rw [div_eq_iff unitsPerOne_ne, unitsPerOne]
  cases s with
  | false => exact Nat.cast_mul n one
  | true =>
    simp only [signedUnits, if_true, Int.cast_neg, Int.cast_natCast, neg_mul, neg_inj]
    exact Nat.cast_mul n one

lemma signedUnits_natAbs (n : ℤ) : signedUnits (decide (n < 0)) n.natAbs = n := by
  by_cases h : n < 0
  · simp only [signedUnits, h, decide_true, if_true]
    omega
  · simp only [signedUnits, h, decide_false, Bool.false_eq_true, if_false]
    omega

lemma ofInt_is {n : ℤ} (h : n.natAbs ≤ 2 ^ 53) : (ofInt n).Is n := by
  have hn := value_ofRatio_integer (decide (n < 0)) h
  rwa [signedUnits_natAbs] at hn

lemma natAbs_of_signedUnits {s : Bool} {u : ℕ} {n : ℤ} (h : signedUnits s u = n * (one : ℕ)) :
    u = n.natAbs * one ∧ signedUnits s n.natAbs = n := by
  have hpos : (0 : ℤ) < (one : ℕ) := by exact_mod_cast one_pos
  have habs : u = n.natAbs * one := by
    have := congrArg Int.natAbs h
    rw [Int.natAbs_mul, Int.natAbs_natCast] at this
    cases s <;> simpa [signedUnits] using this
  refine ⟨habs, ?_⟩
  cases s with
  | false =>
    have hn : 0 ≤ n := nonneg_of_mul_nonneg_left (h ▸ by simp [signedUnits]) hpos
    simp only [signedUnits, Bool.false_eq_true, if_false]
    omega
  | true =>
    have hn : n ≤ 0 := nonpos_of_mul_nonpos_left (h ▸ by simp [signedUnits]) hpos
    simp only [signedUnits, if_true]
    omega

lemma ofRatio_is {s : Bool} {u : ℕ} {n : ℤ} (h : signedUnits s u = n * (one : ℕ))
    (hn : n.natAbs ≤ 2 ^ 53) : (ofRatio s u 1).Is n := by
  obtain ⟨hunits, hsign⟩ := natAbs_of_signedUnits h
  have hvalue := value_ofRatio_integer s hn
  rwa [hsign, ← hunits] at hvalue

lemma signedUnits_of_value {s : Bool} {u : ℕ} {hu : Representable u} {q : ℚ}
    (h : (finite s u hu).value = q) : (signedUnits s u : ℚ) = q * (one : ℕ) := by
  rwa [value, div_eq_iff unitsPerOne_ne, unitsPerOne] at h

lemma signedUnits_add (s : Bool) (m k : ℕ) :
    signedUnits s (m + k) = signedUnits s m + signedUnits s k := by
  cases s with
  | false => simp [signedUnits]
  | true => simp [signedUnits, add_comm]

lemma signedUnits_sub {s t : Bool} (hst : s ≠ t) {m k : ℕ} (h : k ≤ m) :
    signedUnits s (m - k) = signedUnits s m + signedUnits t k := by
  obtain ⟨d, rfl⟩ := Nat.exists_eq_add_of_le h
  have ht : t = !s := by
    cases s <;> cases t <;> simp_all
  subst ht
  rw [Nat.add_sub_cancel_left]
  cases s with
  | false => simp [signedUnits]
  | true => simp [signedUnits]

theorem add_is {x y : Binary64} {a b : ℚ} {n : ℤ} (hx : x.Is a) (hy : y.Is b) (hsum : a + b = n)
    (hn : n.natAbs ≤ 2 ^ 53) : (x + y).Is n := by
  obtain ⟨s, m, hm, rfl⟩ := exists_finite hx.1
  obtain ⟨t, k, hk, rfl⟩ := exists_finite hy.1
  have hunits : signedUnits s m + signedUnits t k = n * (one : ℕ) := by
    have hq := congrArg₂ (· + ·) (signedUnits_of_value hx.2) (signedUnits_of_value hy.2)
    rw [← add_mul, hsum] at hq
    exact_mod_cast hq
  change (add (finite s m hm) (finite t k hk)).Is n
  rw [add]
  split
  · next hst =>
    refine ofRatio_is ?_ hn
    rw [signedUnits_add, ← hunits]
    nth_rewrite 2 [hst]
    rfl
  · next hst =>
    split
    · next hlt =>
      refine ofRatio_is ?_ hn
      rw [signedUnits_sub hst hlt.le, hunits]
    · next hle =>
      split
      · next hlt =>
        refine ofRatio_is ?_ hn
        rw [signedUnits_sub (Ne.symm hst) hlt.le, add_comm, hunits]
      · next hge =>
        have hmk : k = m := Nat.le_antisymm (Nat.le_of_not_lt hge) (Nat.le_of_not_lt hle)
        have hzero := signedUnits_sub hst hmk.le
        rw [hunits, hmk, Nat.sub_self] at hzero
        have hn0 : n = 0 := by
          have hcancel : n * (one : ℕ) = 0 := by
            rw [← hzero]
            cases s <;> rfl
          exact (mul_eq_zero.mp hcancel).resolve_right (by exact_mod_cast one_pos.ne')
        rw [hn0]
        exact ⟨rfl, by simp⟩

lemma neg_is {x : Binary64} {q : ℚ} (h : x.Is q) : x.neg.Is (-q) := by
  obtain ⟨s, n, hn, rfl⟩ := exists_finite h.1
  refine ⟨rfl, ?_⟩
  rw [← h.2]
  cases s <;> simp [value, neg, signedUnits, neg_div]

theorem sub_is {x y : Binary64} {a b : ℚ} {n : ℤ} (hx : x.Is a) (hy : y.Is b) (hdiff : a - b = n)
    (hn : n.natAbs ≤ 2 ^ 53) : (x - y).Is n :=
  add_is hx (neg_is hy) ((sub_eq_add_neg a b).symm.trans hdiff) hn

end TersePath.Binary64
