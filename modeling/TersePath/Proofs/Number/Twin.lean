import TersePath.Proofs.Number.Spelling
import TersePath.Proofs.Number.Value

namespace TersePath

namespace Binary64

/-- The same number, or two zeros. -/
def Twin (x y : Binary64) : Prop := y = x ∨ x.isZero ∧ y.isZero

lemma exists_of_isZero {x : Binary64} (h : x.isZero) : ∃ s, x = .finite s 0 zero_representable := by
  obtain ⟨s, n, hn, rfl⟩ := exists_finite (isFinite_of_isZero h)
  obtain rfl := isZero_finite_iff.mp h
  exact ⟨s, rfl⟩

lemma isZero_finite_zero (s : Bool) : (finite s 0 zero_representable).isZero :=
  isZero_finite_iff.mpr rfl

lemma finite_mul (s t : Bool) {m n : ℕ} (hm : Representable m) (hn : Representable n) :
    finite s m hm * finite t n hn = ofRatio (s ^^ t) (m * n) one := by
  change mul (finite s m hm) (finite t n hn) = _
  rw [mul]

lemma spelling_of_isZero {x : Binary64} (h : x.isZero) : x.spelling = ['0'] := by
  obtain ⟨s, rfl⟩ := exists_of_isZero h
  rw [spelling, if_pos (Nat.zero_mod one), Nat.zero_div]
  cases s <;> rfl

namespace Twin

variable {x y z x' y' : Binary64}

lemma refl (x : Binary64) : Twin x x := Or.inl rfl

lemma symm (h : Twin x y) : Twin y x := h.imp Eq.symm And.symm

lemma isZero (h : Twin x y) : y.isZero = x.isZero := by
  rcases h with rfl | ⟨hx, hy⟩
  · rfl
  · rw [hx, hy]

lemma trans (h : Twin x y) (h' : Twin y z) : Twin x z := by
  rcases h with rfl | ⟨hx, hy⟩
  · exact h'
  · exact Or.inr ⟨hx, h'.isZero.trans hy⟩

lemma of_value (hx : x.isFinite) (hy : y.isFinite) (h : y.value = x.value) : Twin x y := by
  obtain ⟨s, m, hm, rfl⟩ := exists_finite hx
  obtain ⟨t, n, hn, rfl⟩ := exists_finite hy
  rw [value_finite_eq_iff] at h
  have hunits : n = m := by
    have habs := congrArg Int.natAbs h
    rwa [natAbs_signedUnits, natAbs_signedUnits] at habs
  subst hunits
  by_cases hzero : n = 0
  · exact Or.inr ⟨isZero_finite_iff.mpr hzero, isZero_finite_iff.mpr hzero⟩
  · have hsign := congrArg (fun k : ℤ => decide (k < 0)) h
    rw [signedUnits_lt_zero t hzero, signedUnits_lt_zero s hzero] at hsign
    exact Or.inl (by rw [hsign])

lemma add_zero (h : y.isZero) : Twin (x + y) x := by
  obtain ⟨t, rfl⟩ := exists_of_isZero h
  change Twin (add x (.finite t 0 zero_representable)) x
  cases x with
  | nan => exact .refl _
  | infinite s => exact .refl _
  | finite s m hm =>
    have hsame : ofRatio s m 1 = .finite s m hm := ofRatio_units s hm
    rw [add, Nat.add_zero, Nat.sub_zero, hsame]
    split
    · exact .refl _
    · split
      · exact .refl _
      · next hm0 =>
        obtain rfl : m = 0 := Nat.eq_zero_of_not_pos hm0
        exact Or.inr ⟨rfl, isZero_finite_zero s⟩

lemma zero_add (h : x.isZero) : Twin (x + y) y := by
  obtain ⟨s, rfl⟩ := exists_of_isZero h
  change Twin (add (.finite s 0 zero_representable) y) y
  cases y with
  | nan => exact .refl _
  | infinite t => exact .refl _
  | finite t n hn =>
    have hsame : ∀ u, ofRatio u n 1 = .finite u n hn := fun u => ofRatio_units u hn
    rw [add, Nat.zero_add, Nat.sub_zero, hsame, hsame]
    split
    · next hst => exact Or.inl (by rw [hst])
    · split
      · next hlt => exact absurd hlt (Nat.not_lt_zero n)
      · split
        · exact .refl _
        · next hn0 =>
          obtain rfl : n = 0 := Nat.eq_zero_of_not_pos hn0
          exact Or.inr ⟨rfl, isZero_finite_zero t⟩

lemma add (h : Twin x x') (h' : Twin y y') : Twin (x + y) (x' + y') := by
  rcases h with rfl | ⟨hx, hx'⟩
  · rcases h' with rfl | ⟨hy, hy'⟩
    · exact .refl _
    · exact (add_zero hy).trans (add_zero hy').symm
  · exact (zero_add hx).trans (h'.trans (zero_add hx').symm)

lemma neg (h : Twin x y) : Twin x.neg y.neg := by
  rcases h with rfl | ⟨hx, hy⟩
  · exact .refl _
  · obtain ⟨s, rfl⟩ := exists_of_isZero hx
    obtain ⟨t, rfl⟩ := exists_of_isZero hy
    exact Or.inr ⟨isZero_finite_zero _, isZero_finite_zero _⟩

lemma sub (h : Twin x x') (h' : Twin y y') : Twin (x - y) (x' - y') := h.add h'.neg

lemma ofRatio_zero (s t : Bool) : Twin (ofRatio s 0 one) (ofRatio t 0 one) := by
  have hround : roundUnits 0 one = 0 := by
    rw [roundUnits, Nat.zero_div, roundQuotient]
    simp
  have hzero : ∀ u, (ofRatio u 0 one).isZero := by
    intro u
    simp only [ofRatio, hround, limit_pos, dite_true]
    exact isZero_finite_zero u
  exact Or.inr ⟨hzero s, hzero t⟩

lemma mul_zero (h : y.isZero) (h' : y'.isZero) : Twin (x * y) (x * y') := by
  obtain ⟨s, rfl⟩ := exists_of_isZero h
  obtain ⟨t, rfl⟩ := exists_of_isZero h'
  cases x with
  | nan => exact .refl _
  | infinite u => exact .refl _
  | finite u m hm =>
    rw [finite_mul, finite_mul, Nat.mul_zero]
    exact ofRatio_zero _ _

lemma zero_mul (h : x.isZero) (h' : x'.isZero) : Twin (x * y) (x' * y) := by
  obtain ⟨s, rfl⟩ := exists_of_isZero h
  obtain ⟨t, rfl⟩ := exists_of_isZero h'
  cases y with
  | nan => exact .refl _
  | infinite u => exact .refl _
  | finite u m hm =>
    rw [finite_mul, finite_mul, Nat.zero_mul]
    exact ofRatio_zero _ _

lemma mul (h : Twin x x') (h' : Twin y y') : Twin (x * y) (x' * y') := by
  have hright : Twin (x * y) (x * y') := by
    rcases h' with rfl | ⟨hy, hy'⟩
    · exact .refl _
    · exact mul_zero hy hy'
  rcases h with rfl | ⟨hx, hx'⟩
  · exact hright
  · exact hright.trans (zero_mul hx hx')

lemma equals (h : Twin x x') (h' : Twin y y') : x'.equals y' = x.equals y := by
  have hunits : ∀ s, signedUnits s 0 = 0 := fun s => by cases s <;> rfl
  have hleft : ∀ z : Binary64, x'.equals z = x.equals z := by
    intro z
    rcases h with rfl | ⟨hx, hx'⟩
    · rfl
    · obtain ⟨s, rfl⟩ := exists_of_isZero hx
      obtain ⟨t, rfl⟩ := exists_of_isZero hx'
      cases z <;> simp only [Binary64.equals, hunits]
  rw [hleft]
  rcases h' with rfl | ⟨hy, hy'⟩
  · rfl
  · obtain ⟨s, rfl⟩ := exists_of_isZero hy
    obtain ⟨t, rfl⟩ := exists_of_isZero hy'
    cases x <;> simp only [Binary64.equals, hunits]

lemma less (h : Twin x x') (h' : Twin y y') : x'.less y' = x.less y := by
  have hunits : ∀ s, signedUnits s 0 = 0 := fun s => by cases s <;> rfl
  have hleft : ∀ z : Binary64, x'.less z = x.less z := by
    intro z
    rcases h with rfl | ⟨hx, hx'⟩
    · rfl
    · obtain ⟨s, rfl⟩ := exists_of_isZero hx
      obtain ⟨t, rfl⟩ := exists_of_isZero hx'
      cases z <;> simp only [Binary64.less, hunits]
  rw [hleft]
  rcases h' with rfl | ⟨hy, hy'⟩
  · rfl
  · obtain ⟨s, rfl⟩ := exists_of_isZero hy
    obtain ⟨t, rfl⟩ := exists_of_isZero hy'
    cases x <;> simp only [Binary64.less, hunits]

lemma atMost (h : Twin x x') (h' : Twin y y') : x'.atMost y' = x.atMost y := by
  rw [Binary64.atMost, Binary64.atMost, h.less h', h.equals h']

lemma spelling (h : Twin x y) : y.spelling = x.spelling := by
  rcases h with rfl | ⟨hx, hy⟩
  · rfl
  · rw [spelling_of_isZero hx, spelling_of_isZero hy]

end Twin

end Binary64

open Binary64

variable {a b c d a' b' c' d' : Binary64}

lemma onChord_congr (ha : Twin a a') (hb : Twin b b') (hc : Twin c c') (hd : Twin d d') :
    onChord a' b' c' d' = onChord a b c d := by
  have hcross := ((ha.mul hd).sub (hb.mul hc)).isZero
  have hdot := (ha.mul hc).add (hb.mul hd)
  have hlength := (hc.mul hc).add (hd.mul hd)
  simp only [onChord, hc.isZero, hd.isZero, hcross, (Twin.refl zero).atMost hdot, hdot.atMost hlength]

lemma monotonic_congr (ha : Twin a a') (hb : Twin b b') (hc : Twin c c') (hd : Twin d d') :
    monotonic [a', b', c', d'] = monotonic [a, b, c, d] := by
  simp only [monotonic, allNeighbours, List.tail_cons, List.zip_cons_cons, List.zip_nil_right, List.all_cons,
    List.all_nil, ha.atMost hb, hb.atMost hc, hc.atMost hd, hb.atMost ha, hc.atMost hb, hd.atMost hc]

end TersePath
