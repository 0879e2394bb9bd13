import TersePath.Proofs.Number.Conversion

namespace TersePath

lemma digitsValue_append_replicate (digits : List Char) (n : ℕ) :
    digitsValue (digits ++ List.replicate n '0') = digitsValue digits * 10 ^ n := by
  induction n with
  | zero => simp
  | succ n ih =>
    rw [List.replicate_succ', ← List.append_assoc, digitsValue_concat, ih]
    have hzero : digitValue? '0' = some 0 := by decide
    rw [hzero, Option.getD_some, pow_succ]
    ring

lemma digitsValue_replicate_append (digits : List Char) (n : ℕ) :
    digitsValue (List.replicate n '0' ++ digits) = digitsValue digits := by
  induction digits using List.reverseRecOn with
  | nil => simpa [digitsValue] using digitsValue_append_replicate [] n
  | append_singleton digits c ih =>
    rw [← List.append_assoc, digitsValue_concat, digitsValue_concat, ih]

lemma digitsValue_toDigits (n : ℕ) : digitsValue (Nat.toDigits 10 n) = n := by
  induction n using Nat.strong_induction_on with
  | _ n ih =>
    have hdigit : ∀ d < 10, (digitValue? d.digitChar).getD 0 = d := by decide
    rw [Nat.toDigits_eq_if (by norm_num)]
    split
    · next h =>
      rw [← List.nil_append [n.digitChar], digitsValue_concat, hdigit n h]
      simp [digitsValue]
    · next h =>
      rw [digitsValue_concat, ih (n / 10) (by omega), hdigit _ (Nat.mod_lt _ (by norm_num))]
      omega

lemma isDigit_of_mem_toDigits {c : Char} {n : ℕ} (h : c ∈ Nat.toDigits 10 n) : c.isDigit :=
  Nat.isDigit_of_mem_toDigits (by norm_num) le_rfl h

structure Body (text : List Char) (whole fraction : List Char) : Prop where
  shape : text = whole ∧ fraction = [] ∨ text = whole ++ '.' :: fraction
  before : ∀ c ∈ whole, c.isDigit
  after : ∀ c ∈ fraction, c.isDigit
  digits : whole ++ fraction ≠ []

lemma Body.exists_cons {text whole fraction : List Char} (h : Body text whole fraction) :
    ∃ c rest, text = c :: rest ∧ (c.isDigit || c == '.') := by
  obtain ⟨⟨rfl, rfl⟩ | rfl, hwhole, -, hdigits⟩ := h
  · cases text with
    | nil => exact absurd rfl hdigits
    | cons c rest => exact ⟨c, rest, rfl, by simp [hwhole c]⟩
  · cases whole with
    | nil => exact ⟨'.', fraction, rfl, by decide⟩
    | cons c rest => exact ⟨c, rest ++ '.' :: fraction, rfl, by simp [hwhole c]⟩

namespace Numeral

lemma takeWhile_digits {digits : List Char} (h : ∀ c ∈ digits, c.isDigit) {rest : List Char}
    (hrest : ∀ c ∈ rest.head?, isDigit c = false) :
    (digits ++ rest).takeWhile isDigit = digits ∧ (digits ++ rest).dropWhile isDigit = rest := by
  have hdigits : ∀ c ∈ digits, isDigit c := fun c hc => isDigit_of_isDigit (h c hc)
  rw [List.takeWhile_append_of_pos hdigits, List.dropWhile_append_of_pos hdigits]
  cases rest with
  | nil => simp
  | cons c rest =>
    have hc := hrest c rfl
    simp [hc]

lemma nil_head : ∀ c ∈ ([] : List Char).head?, isDigit c = false := by simp

lemma readMantissa_append {text whole fraction : List Char} (h : Body text whole fraction)
    {rest : List Char} (hrest : ∀ c ∈ rest.head?, isDigit c = false ∧ c ≠ '.') :
    readMantissa (text ++ rest) = some (whole, fraction, rest) := by
  obtain ⟨⟨rfl, rfl⟩ | rfl, hwhole, hfraction, hsome⟩ := h
  · obtain ⟨htake, hdrop⟩ := takeWhile_digits hwhole fun c hc => (hrest c hc).1
    have hne : text ≠ [] := by simpa using hsome
    rw [readMantissa, htake, hdrop]
    cases rest with
    | nil => simp [hne]
    | cons c rest =>
      have hpoint : c ≠ '.' := (hrest c rfl).2
      split
      · next heq => exact absurd (List.cons.inj heq).1 hpoint
      · simp [hne]
  · have hpoint : isDigit '.' = false := by decide
    obtain ⟨htake, hdrop⟩ := takeWhile_digits hwhole (show ∀ c ∈ ('.' :: (fraction ++ rest)).head?,
      isDigit c = false by simpa using hpoint)
    obtain ⟨htake', hdrop'⟩ := takeWhile_digits hfraction fun c hc => (hrest c hc).1
    have hne : ¬(whole = [] ∧ fraction = []) := by simpa using hsome
    rw [List.append_assoc, List.cons_append]
    simp [readMantissa, htake, hdrop, htake', hdrop', hne]

lemma readSign_body {text whole fraction : List Char} (h : Body text whole fraction) (s : Bool) :
    readSign (signText s ++ text) = (s, text) := by
  cases s with
  | true => rfl
  | false =>
    obtain ⟨c, rest, rfl, hc⟩ := h.exists_cons
    have hminus : c ≠ '-' := by
      rintro rfl
      exact absurd hc (by decide)
    have hplus : c ≠ '+' := by
      rintro rfl
      exact absurd hc (by decide)
    simp only [signText, Bool.false_eq_true, if_false, List.nil_append]
    unfold readSign
    split
    · next heq => exact absurd (List.cons.inj heq).1 hminus
    · next heq => exact absurd (List.cons.inj heq).1 hplus
    · rfl

theorem read_body {text whole fraction : List Char} (h : Body text whole fraction) (s : Bool) :
    read? (signText s ++ text) =
      some ⟨s, digitsValue (whole ++ fraction), 0 - (fraction.length : ℤ)⟩ := by
  have hmantissa : readMantissa (text ++ []) = _ := readMantissa_append h (by simp)
  rw [List.append_nil] at hmantissa
  simp only [read?, readFront, readSign_body h s, hmantissa, readExponent]

end Numeral

namespace Decimal

lemma value_places_nonneg {x : Decimal} (h : 0 ≤ x.exponent) :
    ((x.coefficient * 10 ^ x.exponent.toNat : ℕ) : ℚ) * 10 ^ (0 - ((0 : ℕ) : ℤ)) =
      x.coefficient * 10 ^ x.exponent := by
  obtain ⟨n, hn⟩ := Int.eq_ofNat_of_zero_le h
  simp [hn]

lemma places_spec (x : Decimal) :
    (∀ c ∈ x.places.1, c.isDigit) ∧ (∀ c ∈ x.places.2, c.isDigit) ∧ x.places.1 ++ x.places.2 ≠ [] ∧
      (digitsValue (x.places.1 ++ x.places.2) : ℚ) * 10 ^ (0 - (x.places.2.length : ℤ)) =
        x.coefficient * 10 ^ x.exponent := by
  have hdigits : ∀ c ∈ Nat.toDigits 10 x.coefficient, c.isDigit := fun c hc => isDigit_of_mem_toDigits hc
  have hzeros : ∀ (n : ℕ), ∀ c ∈ List.replicate n '0', c.isDigit := by
    intro n c hc
    rw [List.eq_of_mem_replicate hc]
    rfl
  have hne : Nat.toDigits 10 x.coefficient ≠ [] := Nat.toDigits_ne_nil
  have hvalue := digitsValue_toDigits x.coefficient
  unfold places
  generalize Nat.toDigits 10 x.coefficient = digits at *
  dsimp only
  split
  · next h =>
    refine ⟨?_, by simp, by simp [hne], ?_⟩
    · intro c hc
      rcases List.mem_append.mp hc with hc | hc
      · exact hdigits c hc
      · exact hzeros _ c hc
    · rw [List.append_nil, digitsValue_append_replicate, hvalue]
      exact value_places_nonneg h
  · next h =>
    obtain ⟨count, hcount⟩ : ∃ count : ℕ, x.exponent = -(count : ℤ) :=
      ⟨(-x.exponent).toNat, by omega⟩
    have htoNat : (-x.exponent).toNat = count := by omega
    rw [htoNat]
    split
    · next hlt =>
      have hlength : (digits.drop (digits.length - count)).length = count := by
        rw [List.length_drop]
        omega
      refine ⟨fun c hc => hdigits c (List.mem_of_mem_take hc),
        fun c hc => hdigits c (List.mem_of_mem_drop hc), ?_, ?_⟩
      · rw [List.take_append_drop]
        exact hne
      · rw [List.take_append_drop, hvalue, hlength, hcount, zero_sub]
    · next hle =>
      have hlength : (List.replicate (count - digits.length) '0' ++ digits).length = count := by
        rw [List.length_append, List.length_replicate]
        omega
      refine ⟨by simp, ?_, by simp [hne], ?_⟩
      · intro c hc
        rcases List.mem_append.mp hc with hc | hc
        · exact hzeros _ c hc
        · exact hdigits c hc
      · rw [List.nil_append, digitsValue_replicate_append, hvalue, hlength, hcount, zero_sub]

end Decimal

namespace Binary64

/-- What the spelling of a number says: the sign of zero is lost. -/
def reread (x : Binary64) : Binary64 := if x.isZero then zero else x

lemma isFinite_reread {x : Binary64} (hx : x.isFinite) : x.reread.isFinite := by
  rw [reread]
  split
  · rfl
  · exact hx

lemma equals_reread {x : Binary64} (hx : x.isFinite) : x.equals x.reread := by
  rw [reread]
  split
  · next h => exact h
  · exact (equals_iff hx hx).mpr rfl

lemma isZero_finite_iff {s : Bool} {n : ℕ} {hn : Representable n} :
    (finite s n hn).isZero = true ↔ n = 0 := by
  cases s <;> simp [isZero, equals, zero, signedUnits]

lemma reread_finite (s : Bool) {n : ℕ} (hn : Representable n) (hpos : n ≠ 0) :
    (finite s n hn).reread = finite s n hn := by
  rw [reread, if_neg (mt isZero_finite_iff.mp hpos)]

lemma toBinary64_whole (s : Bool) {n : ℕ} (hn : Representable (n * one)) (hpos : n ≠ 0) :
    (⟨s, n, 0⟩ : Decimal).toBinary64 = .finite s (n * one) hn := by
  have hlt : n < 10 ^ 309 := by
    have hlimit := lt_of_lt_of_le hn.2 limit_le
    exact Nat.lt_of_mul_lt_mul_right hlimit
  have hcount : digitCount n ≤ 309 := (digitCount_le_iff (Nat.succ_pos 308)).mpr hlt
  have hlow : ¬((digitCount n : ℤ) + 0 < -330) := by omega
  have hhigh : ¬(310 < (digitCount n : ℤ) + 0) := by omega
  simp only [Decimal.toBinary64, hpos, hlow, hhigh, or_self, if_false, Int.toNat_zero, neg_zero,
    pow_zero, mul_one]
  exact ofRatio_units s hn

lemma value_shortest_places {s : Bool} {n : ℕ} (hn : Representable n) (hpos : n ≠ 0) :
    (⟨s, digitsValue ((shortest s n hn).places.1 ++ (shortest s n hn).places.2),
      0 - ((shortest s n hn).places.2.length : ℤ)⟩ : Decimal).toBinary64 = .finite s n hn := by
  obtain ⟨-, -, -, hvalue⟩ := Decimal.places_spec (shortest s n hn)
  have hback : (shortest s n hn).toBinary64 = .finite s n hn :=
    toBinary64_toDecimal (x := .finite s n hn) rfl
  rw [← hback]
  refine Decimal.toBinary64_congr (shortest_spec hn hpos).1.symm ?_
  rw [Decimal.abs_value, Decimal.abs_value]
  exact hvalue

lemma finite_congr (s : Bool) {m n : ℕ} (h : m = n) (hm : Representable m) (hn : Representable n) :
    finite s m hm = finite s n hn := by
  subst h
  rfl

lemma signedUnits_lt_zero (s : Bool) {n : ℕ} (hpos : n ≠ 0) : decide (signedUnits s n < 0) = s := by
  cases s <;> simp [signedUnits, Nat.pos_of_ne_zero hpos]

lemma natAbs_signedUnits (s : Bool) (n : ℕ) : (signedUnits s n).natAbs = n := by
  cases s <;> simp [signedUnits]

lemma reread_zero (s : Bool) {n : ℕ} (hn : Representable n) (hzero : n = 0) :
    (finite s n hn).reread = zero := by
  rw [reread, if_pos (isZero_finite_iff.mpr hzero)]

lemma toBinary64_integerText (s : Bool) {n : ℕ} (hn : Representable n) (hmod : n % one = 0) :
    (⟨decide (signedUnits s (n / one) < 0), (signedUnits s (n / one)).natAbs, 0⟩ :
      Decimal).toBinary64 = (finite s n hn).reread := by
  have hn' : n / one * one = n := Nat.div_mul_cancel (Nat.dvd_of_mod_eq_zero hmod)
  rw [natAbs_signedUnits]
  by_cases hzero : n / one = 0
  · have hn0 : n = 0 := by rw [← hn', hzero, zero_mul]
    rw [reread_zero s hn hn0, hzero]
    cases s <;> simp [signedUnits, Decimal.toBinary64, zero]
  · have hpos : n ≠ 0 := by
      intro h
      exact hzero (by rw [h, Nat.zero_div])
    rw [signedUnits_lt_zero s hzero, reread_finite s hn hpos]
    have hrepresentable : Representable (n / one * one) := hn'.symm ▸ hn
    rw [toBinary64_whole s hrepresentable hzero]
    exact finite_congr s hn' hrepresentable hn

/-- The spelling of a finite number is a literal that is read back as it. -/
theorem exists_spelling {x : Binary64} (hx : x.isFinite) :
    ∃ s body whole fraction, x.spelling = signText s ++ body ∧ Body body whole fraction ∧
      (⟨s, digitsValue (whole ++ fraction), 0 - (fraction.length : ℤ)⟩ : Decimal).toBinary64 =
        x.reread := by
  obtain ⟨s, n, hn, rfl⟩ := exists_finite hx
  rw [spelling]
  split
  · next hmod =>
    have hback := toBinary64_integerText s hn hmod
    generalize signedUnits s (n / one) = k at *
    refine ⟨decide (k < 0), Nat.toDigits 10 k.natAbs, Nat.toDigits 10 k.natAbs, [], rfl,
      ⟨Or.inl ⟨rfl, rfl⟩, fun c hc => isDigit_of_mem_toDigits hc, by simp, ?_⟩, ?_⟩
    · simp [Nat.toDigits_ne_nil]
    · rw [List.append_nil, digitsValue_toDigits]
      exact hback
  · next hmod =>
    have hpos : n ≠ 0 := by
      intro h
      rw [h, Nat.zero_mod] at hmod
      exact hmod rfl
    obtain ⟨hwhole, hfraction, hne, -⟩ := Decimal.places_spec (shortest s n hn)
    refine ⟨s, (shortest s n hn).places.1 ++ '.' :: (shortest s n hn).places.2,
      (shortest s n hn).places.1, (shortest s n hn).places.2, List.append_assoc .., ⟨Or.inr rfl,
        hwhole, hfraction, hne⟩, ?_⟩
    rw [value_shortest_places hn hpos, reread_finite s hn hpos]

lemma read?_spelling {x : Binary64} (hx : x.isFinite) :
    ∃ d, Numeral.read? x.spelling = some d ∧ d.toBinary64 = x.reread := by
  obtain ⟨s, body, whole, fraction, htext, hbody, hvalue⟩ := exists_spelling hx
  exact ⟨_, htext ▸ Numeral.read_body hbody s, hvalue⟩

lemma isNumeral_spelling {x : Binary64} (hx : x.isFinite) : isNumeral x.spelling := by
  obtain ⟨d, hd, -⟩ := read?_spelling hx
  rw [isNumeral, hd]
  rfl

lemma readNumber_spelling {x : Binary64} (hx : x.isFinite) : readNumber x.spelling = x.reread := by
  obtain ⟨d, hd, hvalue⟩ := read?_spelling hx
  rw [readNumber, hd]
  exact hvalue

end Binary64

end TersePath
