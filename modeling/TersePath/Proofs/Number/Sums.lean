import TersePath.Proofs.Number.Spelling
import TersePath.Path.Spelling

namespace TersePath.Binary64

open Decimal

/-- A number that is written without a point. -/
def Whole (x : Binary64) : Prop := x.isInteger = true ∨ ∃ s, x = .infinite s

/-- How many characters a whole number has apart from its sign. -/
def width : Binary64 → ℕ
  | .finite _ n _ => digitCount (n / one)
  | .infinite _ => 8
  | .nan => 3

def signs : Binary64 → ℕ
  | .finite s n _ => if s = true ∧ n / one ≠ 0 then 1 else 0
  | .infinite s => if s = true then 1 else 0
  | .nan => 0

section Rounding

lemma spacing_dvd_spacing {m n : ℕ} (h : m ≤ n) : spacing m ∣ spacing n := by
  refine Nat.pow_dvd_pow 2 (Nat.sub_le_sub_right ?_ 52)
  rcases Nat.eq_zero_or_pos m with rfl | hm
  · simp
  · exact (Nat.le_log2 (by omega)).mpr ((Nat.log2_self_le hm.ne').trans h)

lemma roundUnits_le_of_le {n bound : ℕ} (h : n ≤ bound) (hbound : spacing bound ∣ bound) :
    roundUnits n 1 ≤ bound := by
  obtain ⟨q, hq⟩ := (spacing_dvd_spacing h).trans hbound
  have hs := spacing_pos n
  simp only [roundUnits, Nat.div_one, Nat.one_mul]
  generalize spacing n = s at *
  have hquotient : roundQuotient n s ≤ q := by
    rcases Nat.eq_or_lt_of_le h with rfl | hlt
    · rw [hq, Nat.mul_comm, roundQuotient_mul q s hs]
    · have hdiv : n / s < q := (Nat.div_lt_iff_lt_mul hs).mpr (by rwa [Nat.mul_comm, ← hq])
      exact (roundQuotient_le n s).trans hdiv
  rw [hq, Nat.mul_comm s q]
  exact Nat.mul_le_mul_right s hquotient

lemma spacing_double {n : ℕ} (h : spacing n ∣ n) : spacing (2 * n) ∣ 2 * n := by
  have hlt := lt_spacing_mul n
  refine spacing_dvd_of_dvd (e := n.log2 - 52 + 1) ?_ ?_
  · rw [pow_succ, Nat.mul_comm]
    exact Nat.mul_dvd_mul_left 2 h
  · rw [spacing, ← pow_add] at hlt
    have hpow : 2 ^ (53 + (n.log2 - 52 + 1)) = 2 * 2 ^ (n.log2 - 52 + 53) := by
      rw [← pow_succ']
      congr 1
      omega
    omega

lemma one_dvd_roundUnits {n : ℕ} (h : one ∣ n) : one ∣ roundUnits n 1 := by
  rcases Nat.le_total (n.log2 - 52) places with hle | hle
  · have hdvd : spacing n ∣ one := Nat.pow_dvd_pow 2 hle
    exact (roundUnits_of_dvd (Nat.dvd_trans hdvd h)).symm ▸ h
  · have hdvd : one ∣ spacing n := Nat.pow_dvd_pow 2 hle
    simp only [roundUnits, Nat.div_one, Nat.one_mul]
    exact Nat.dvd_trans hdvd (Nat.dvd_mul_left _ _)

end Rounding

section Width

lemma digitCount_pos (n : ℕ) : 0 < digitCount n := Nat.length_toDigits_pos

lemma digitCount_mono {m n : ℕ} (h : m ≤ n) : digitCount m ≤ digitCount n :=
  (digitCount_le_iff (digitCount_pos n)).mpr (h.trans_lt (lt_pow_of_digitCount n))

lemma digitCount_double (n : ℕ) : digitCount (2 * n) ≤ digitCount n + 1 := by
  have hlt := lt_pow_of_digitCount n
  refine (digitCount_le_iff (Nat.succ_pos _)).mpr ?_
  rw [pow_succ]
  omega

lemma length_integerText (n : ℤ) :
    (integerText n).length = (if n < 0 then 1 else 0) + digitCount n.natAbs := by
  rw [integerText, List.length_append, digitCount]
  by_cases h : n < 0 <;> simp [signText, h]

lemma spelling_integer {s : Bool} {n : ℕ} {hn : Representable n} (h : (finite s n hn).isInteger = true) :
    (finite s n hn).spelling = integerText (signedUnits s (n / one)) :=
  if_pos (beq_iff_eq.mp h)

lemma signedUnits_neg_iff (s : Bool) (n : ℕ) : signedUnits s n < 0 ↔ s = true ∧ n ≠ 0 := by
  cases s with
  | false => simp [signedUnits]
  | true =>
    simp [signedUnits]
    omega

lemma spelling_length {x : Binary64} (h : x.Whole) : x.spelling.length = x.signs + x.width := by
  obtain h | ⟨s, rfl⟩ := h
  · cases x with
    | finite s n hn =>
      rw [spelling_integer h, length_integerText, natAbs_signedUnits, signs, width]
      simp only [signedUnits_neg_iff]
    | infinite s => cases h
    | nan => cases h
  · cases s <;> rfl

lemma length_nextOperand_signed (s : Bool) {body : List Char} (h : body.head? ≠ some '-') :
    (nextOperand false (signText s ++ body)).length = body.length + 1 := by
  cases s with
  | true => simp [nextOperand, signText]
  | false => simp [nextOperand, signText, h]

lemma nextOperand_length {x : Binary64} (h : x.Whole) :
    (nextOperand false x.spelling).length = x.width + 1 := by
  obtain h | ⟨s, rfl⟩ := h
  · cases x with
    | finite s n hn =>
      rw [spelling_integer h, integerText, length_nextOperand_signed, natAbs_signedUnits]
      · rfl
      · intro hhead
        cases isDigit_of_mem_toDigits (List.mem_of_mem_head? hhead)
    | infinite s => cases h
    | nan => cases h
  · exact length_nextOperand_signed s (by simp)

end Width

section Sums

variable {x y : Binary64} {s : Bool} {n k : ℕ}

lemma exists_integer (h : x.isInteger = true) : ∃ s k hk, x = finite s (k * one) hk := by
  cases x with
  | finite s n hn =>
    obtain ⟨k, hk⟩ := Nat.dvd_of_mod_eq_zero (beq_iff_eq.mp h)
    rw [Nat.mul_comm] at hk
    exact ⟨s, k, hk ▸ hn, finite_congr s hk hn _⟩
  | infinite s => cases h
  | nan => cases h

lemma width_integer (s : Bool) (hk : Representable (k * one)) :
    (finite s (k * one) hk).width = digitCount k := by
  rw [width, Nat.mul_div_cancel k one_pos]

lemma signs_integer (s : Bool) (hk : Representable (k * one)) :
    (finite s (k * one) hk).signs = if s = true ∧ k ≠ 0 then 1 else 0 := by
  simp only [signs, Nat.mul_div_cancel k one_pos]

lemma limit_large : 2 * 10 ^ 6 * one ≤ limit := by
  rw [limit, Nat.pow_add, ← one]
  refine Nat.mul_le_mul_right one ?_
  calc 2 * 10 ^ 6 ≤ 2 ^ 21 := by norm_num
    _ ≤ 2 ^ range := Nat.pow_le_pow_right (by norm_num) (by rw [range]; omega)

lemma sign_le_sign {m n : ℕ} (h : m ≠ 0 → n ≠ 0) :
    (if s = true ∧ m ≠ 0 then 1 else 0) ≤ if s = true ∧ n ≠ 0 then 1 else 0 := by
  split
  · next hsign => rw [if_pos ⟨hsign.1, h hsign.2⟩]
  · exact Nat.zero_le _

lemma width_ofRatio (s : Bool) {v : ℕ} (hle : v ≤ 2 * k) (hk : spacing (k * one) ∣ k * one) :
    (ofRatio s (v * one) 1).Whole ∧ (ofRatio s (v * one) 1).width ≤ digitCount k + 1 ∧
      (ofRatio s (v * one) 1).signs ≤ if s = true ∧ v ≠ 0 then 1 else 0 := by
  have hround : roundUnits (v * one) 1 ≤ 2 * k * one := by
    rw [Nat.mul_assoc]
    refine roundUnits_le_of_le ?_ (spacing_double hk)
    rw [← Nat.mul_assoc]
    exact Nat.mul_le_mul_right one hle
  have hzero : v = 0 → roundUnits (v * one) 1 = 0 := by
    rintro rfl
    rw [Nat.zero_mul]
    exact roundUnits_of_dvd (Nat.dvd_zero _)
  rw [ofRatio]
  split
  · refine ⟨Or.inl (beq_iff_eq.mpr (Nat.mod_eq_zero_of_dvd (one_dvd_roundUnits (Nat.dvd_mul_left _ _)))), ?_,
      sign_le_sign fun hne hv => hne ?_⟩
    · have hdiv : roundUnits (v * one) 1 / one ≤ 2 * k :=
        Nat.div_le_of_le_mul (hround.trans_eq (Nat.mul_comm (2 * k) one))
      exact (digitCount_mono hdiv).trans (digitCount_double k)
    · rw [hzero hv, Nat.zero_div]
  · next hlimit =>
    -- what becomes infinite has more digits than the text of infinity has letters
    have hlimit := Nat.le_of_not_lt hlimit
    refine ⟨Or.inr ⟨s, rfl⟩, ?_, ?_⟩
    · by_contra hshort
      rw [width] at hshort
      have hdigits : digitCount k ≤ 6 := by omega
      have hsmall : 2 * k < 2 * 10 ^ 6 := by
        have := (digitCount_le_iff (by norm_num)).mp hdigits
        omega
      have hlt : 2 * k * one < 2 * 10 ^ 6 * one := Nat.mul_lt_mul_of_pos_right hsmall one_pos
      exact absurd (hlimit.trans hround) (Nat.not_le_of_lt (hlt.trans_le limit_large))
    · have hne : v ≠ 0 := by
        intro hv
        rw [hzero hv] at hlimit
        exact absurd hlimit (Nat.not_le_of_lt limit_pos)
      simp [signs, hne]

lemma add_cases {m n : ℕ} {s t : Bool} (hm : Representable (m * one)) (hn : Representable (n * one)) :
    finite s (m * one) hm + finite t (n * one) hn = zero ∨
    ∃ u v, finite s (m * one) hm + finite t (n * one) hn = ofRatio u (v * one) 1 ∧ v ≤ m + n ∧
      (u = s ∧ (v ≠ 0 → m ≠ 0) ∨ u = t ∧ (v ≠ 0 → n ≠ 0)) := by
  have hadd : finite s (m * one) hm + finite t (n * one) hn =
      if s = t then ofRatio s (m * one + n * one) 1
      else if n * one < m * one then ofRatio s (m * one - n * one) 1
      else if m * one < n * one then ofRatio t (n * one - m * one) 1
      else zero := rfl
  rw [hadd, ← Nat.add_mul, ← Nat.sub_mul, ← Nat.sub_mul]
  split
  · next hst =>
    refine Or.inr ⟨s, m + n, rfl, le_rfl, ?_⟩
    rcases Nat.eq_zero_or_pos m with rfl | hpos
    · exact Or.inr ⟨hst, by omega⟩
    · exact Or.inl ⟨rfl, fun _ => hpos.ne'⟩
  · split
    · exact Or.inr ⟨s, m - n, rfl, by omega, Or.inl ⟨rfl, by omega⟩⟩
    · split
      · exact Or.inr ⟨t, n - m, rfl, by omega, Or.inr ⟨rfl, by omega⟩⟩
      · exact Or.inl rfl

lemma exists_larger {m n : ℕ} (hm : Representable (m * one)) (hn : Representable (n * one)) :
    ∃ k, m + n ≤ 2 * k ∧ spacing (k * one) ∣ k * one ∧ digitCount k + 1 ≤ digitCount m + digitCount n := by
  have hmpos := digitCount_pos m
  have hnpos := digitCount_pos n
  rcases Nat.le_total m n with hle | hle
  · exact ⟨n, by omega, hn.1, by omega⟩
  · exact ⟨m, by omega, hm.1, by omega⟩

lemma width_zero : zero.Whole ∧ zero.width = 1 ∧ zero.signs = 0 := by
  refine ⟨Or.inl (beq_iff_eq.mpr (Nat.zero_mod one)), ?_, ?_⟩
  · rw [zero, width, Nat.zero_div]
    rfl
  · simp [zero, signs]

/-- A sum has at most the digits and the signs of both of its terms. -/
theorem width_add (hx : x.Whole) (hy : y.isInteger = true) : (x + y).Whole ∧
    (x + y).width ≤ x.width + y.width ∧ (x + y).signs ≤ x.signs + y.signs := by
  obtain ⟨t, n, hn, rfl⟩ := exists_integer hy
  obtain hx | ⟨s, rfl⟩ := hx
  · obtain ⟨s, m, hm, rfl⟩ := exists_integer hx
    obtain ⟨k, hle, hk, hdigits⟩ := exists_larger hm hn
    rw [width_integer, width_integer, signs_integer, signs_integer]
    obtain hzero | ⟨u, v, hsum, hv, hsign⟩ := add_cases (s := s) (t := t) hm hn
    · obtain ⟨hwhole, hwidth, hsigns⟩ := width_zero
      have hpos := digitCount_pos k
      rw [hzero]
      exact ⟨hwhole, by omega, hsigns.trans_le (Nat.zero_le _)⟩
    · obtain ⟨hwhole, hwidth, hsigns⟩ := width_ofRatio u (hv.trans hle) hk
      rw [hsum]
      refine ⟨hwhole, hwidth.trans hdigits, hsigns.trans ?_⟩
      rcases hsign with ⟨rfl, hne⟩ | ⟨rfl, hne⟩
      · exact (sign_le_sign hne).trans (Nat.le_add_right _ _)
      · exact (sign_le_sign hne).trans (Nat.le_add_left _ _)
  · exact ⟨Or.inr ⟨s, rfl⟩, Nat.le_add_right _ _, Nat.le_add_right _ _⟩

end Sums

end TersePath.Binary64
