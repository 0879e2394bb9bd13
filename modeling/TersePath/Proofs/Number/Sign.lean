import TersePath.Proofs.Number.Value

namespace TersePath.Binary64

lemma roundUnits_pos {n : ℕ} (h : 0 < n) : 0 < roundUnits n 1 := by
  have hstep : spacing n ≤ n :=
    (Nat.pow_le_pow_right (by norm_num) (Nat.sub_le _ _)).trans (Nat.log2_self_le h.ne')
  have hquotient : 0 < n / spacing n := Nat.div_pos hstep (spacing_pos n)
  simp only [roundUnits, Nat.div_one, Nat.one_mul]
  exact Nat.mul_pos (hquotient.trans_le (le_roundQuotient _ _)) (spacing_pos n)

lemma signClass_finite (s : Bool) {n : ℕ} (hn : Representable n) :
    signClass (finite s n hn) = some (if n = 0 then 0 else if s then -1 else 1) := by
  cases s <;> by_cases h : n = 0 <;> simp [signClass, isNan, isZero, equals, less, zero, signedUnits, h]

lemma isZero_iff_signClass {x : Binary64} : x.isZero = true ↔ signClass x = some 0 := by
  rw [signClass]
  cases x with
  | nan => simp [isNan, isZero, equals]
  | infinite s => cases s <;> simp [isNan, isZero, equals, less, zero]
  | finite s n hn => cases h : (finite s n hn).isZero <;> simp [isNan]; split <;> simp

lemma signClass_infinite (s : Bool) : signClass (infinite s) = some (if s then -1 else 1) := by
  cases s <;> rfl

lemma signClass_ofRatio (s : Bool) {n : ℕ} (h : 0 < n) :
    signClass (ofRatio s n 1) = some (if s then -1 else 1) := by
  rw [ofRatio]
  split
  · exact (signClass_finite s _).trans (congrArg some (if_neg (roundUnits_pos h).ne'))
  · exact signClass_infinite s

lemma signClass_add {x y : Binary64} (hx : signClass x ≠ some 0) (h : sameDirection x y) :
    signClass (x + y) = signClass x := by
  change signClass (x.add y) = _
  have hnan : signClass nan = none := rfl
  rw [sameDirection] at h
  cases x with
  | nan => simp [hnan] at h
  | infinite s =>
    cases y with
    | nan => simp [hnan] at h
    | infinite t =>
      have hst : s = t := by
        rw [signClass_infinite, signClass_infinite] at h
        cases s <;> cases t <;> simp_all
      rw [add, if_pos hst]
    | finite t n hn => rfl
  | finite s m hm =>
    have hm0 : m ≠ 0 := by
      rintro rfl
      exact hx (by rw [signClass_finite, if_pos rfl])
    have hsign : signClass (finite s m hm) = some (if s then -1 else 1) := by
      rw [signClass_finite, if_neg hm0]
    rw [hsign] at h ⊢
    cases y with
    | nan => simp [hnan] at h
    | infinite t =>
      rw [signClass_infinite] at h
      rw [add, signClass_infinite]
      cases s <;> cases t <;> simp_all
    | finite t n hn =>
      rw [add]
      split
      · exact signClass_ofRatio s (by omega)
      · next hst =>
        have hn0 : n = 0 := by
          rw [signClass_finite] at h
          by_contra hne
          rw [if_neg hne] at h
          cases s <;> cases t <;> simp_all
        rw [if_pos (by omega)]
        exact signClass_ofRatio s (by omega)

end TersePath.Binary64
