import TersePath.Proofs.Number.Places
import TersePath.Proofs.Number.Sums
import TersePath.Path.Token

namespace TersePath

/-- A number written without idle characters. A zero may stand before the point only as the last digit of
an integer that begins with another one. -/
structure Concise (text : List Char) : Prop where
  plus : '+' ∉ text
  exponent : ∀ c ∈ text, isExponentMark c = false
  lead : ∀ front back, text = front ++ '0' :: '.' :: back → ∃ s c digits,
    front = signText s ++ c :: digits ∧ (c.isDigit ∧ c ≠ '0') ∧ ∀ d ∈ digits, d.isDigit
  zero : '.' ∈ text → text.getLast? ≠ some '0'
  point : text.getLast? ≠ some '.'
  minus : '-' ∈ text → (readNumber text).isZero = false

lemma head_toDigits {n : ℕ} (h : n ≠ 0) : (Nat.toDigits 10 n).head? ≠ some '0' := by
  induction n using Nat.strong_induction_on with
  | _ n ih =>
    rw [Nat.toDigits_eq_if (by norm_num)]
    split
    · have hdigit : ∀ d < 10, d ≠ 0 → d.digitChar ≠ '0' := by decide
      simpa using hdigit n ‹_› h
    · rw [List.head?_append_of_ne_nil _ Nat.toDigits_ne_nil]
      exact ih (n / 10) (by omega) (by omega)

lemma getLast_toDigits {n : ℕ} (h : n % 10 ≠ 0) : ∃ c ∈ (Nat.toDigits 10 n).getLast?, c ≠ '0' := by
  have hdigit : ∀ d < 10, d ≠ 0 → d.digitChar ≠ '0' := by decide
  refine ⟨(n % 10).digitChar, ?_, hdigit _ (Nat.mod_lt _ (by norm_num)) h⟩
  rw [Nat.toDigits_eq_if (by norm_num)]
  split
  · next hlt => simp [Nat.mod_eq_of_lt hlt]
  · simp

namespace Decimal

lemma places_of_fraction {d : Decimal} (hexponent : d.exponent < 0) (hlast : d.coefficient % 10 ≠ 0) :
    d.places.1.head? ≠ some '0' ∧ ∃ c ∈ d.places.2.getLast?, c ≠ '0' := by
  have hhead : (Nat.toDigits 10 d.coefficient).head? ≠ some '0' := head_toDigits (by omega)
  obtain ⟨c, hc, hzero⟩ := getLast_toDigits hlast
  rw [places]
  generalize Nat.toDigits 10 d.coefficient = digits at *
  dsimp only
  rw [if_neg (by omega)]
  split
  · refine ⟨?_, c, ?_, hzero⟩
    · rw [List.head?_take, if_neg (by omega)]
      exact hhead
    · rw [List.getLast?_drop, if_neg (by omega)]
      exact hc
  · refine ⟨by simp, c, ?_, hzero⟩
    rw [List.getLast?_append, Option.mem_def.mp hc]
    rfl

end Decimal

namespace Binary64

lemma one_dvd_of_exponent {d : Decimal} (h : 0 ≤ d.exponent) {s : Bool} {n : ℕ} {hn : Representable n}
    (hread : d.toBinary64 = .finite s n hn) : one ∣ n := by
  have hzero : (-d.exponent).toNat = 0 := by omega
  rw [Decimal.toBinary64] at hread
  split at hread
  · obtain ⟨-, rfl⟩ := finite.inj hread
    exact Nat.dvd_zero one
  · split at hread
    · cases hread
    · rw [ofRatio] at hread
      split at hread
      · obtain ⟨-, rfl⟩ := finite.inj hread
        rw [hzero, pow_zero]
        exact one_dvd_roundUnits (Nat.dvd_mul_left one _)
      · cases hread

lemma exponent_of_not_integer {s : Bool} {n : ℕ} (hn : Representable n) (hmod : n % one ≠ 0) :
    (shortest s n hn).exponent < 0 := by
  by_contra hexponent
  have hread : (shortest s n hn).toBinary64 = .finite s n hn :=
    toBinary64_toDecimal (x := .finite s n hn) rfl
  exact hmod (Nat.mod_eq_zero_of_dvd (one_dvd_of_exponent (not_lt.mp hexponent) hread))

end Binary64

section Shape

variable {s : Bool} {whole fraction : List Char} {c : Char}

lemma mem_signText : c ∈ signText s ↔ s = true ∧ c = '-' := by
  cases s <;> simp [signText]

lemma exists_digit_of_lead (hwhole : ∀ c ∈ whole, c.isDigit) (hhead : whole.head? ≠ some '0')
    {front : List Char} (h : signText s ++ whole = front ++ ['0']) : ∃ s c digits,
      front = signText s ++ c :: digits ∧ (c.isDigit ∧ c ≠ '0') ∧ ∀ d ∈ digits, d.isDigit := by
  rcases List.eq_nil_or_concat whole with rfl | ⟨initial, d, rfl⟩
  · have hzero : '0' ∈ signText s := by
      rw [List.append_nil] at h
      simp [h]
    exact absurd (mem_signText.mp hzero).2 (by decide)
  · rw [List.concat_eq_append, ← List.append_assoc] at h
    obtain ⟨rfl, hd⟩ := List.append_inj' h rfl
    obtain rfl := (List.cons.inj hd).1
    cases initial with
    | nil => exact absurd rfl hhead
    | cons c digits =>
      refine ⟨s, c, digits, rfl, ⟨hwhole c (by simp), ?_⟩, fun d hd => hwhole d (by simp [hd])⟩
      rintro rfl
      exact hhead rfl

lemma mem_digits (hwhole : ∀ c ∈ whole, c.isDigit) (hfraction : ∀ c ∈ fraction, c.isDigit)
    (hc : c ∈ signText s ++ (whole ++ if fraction = [] then [] else '.' :: fraction)) :
    c = '-' ∧ s = true ∨ c = '.' ∧ fraction ≠ [] ∨ c.isDigit = true := by
  rw [List.mem_append, List.mem_append, mem_signText] at hc
  rcases hc with hc | hc | hc
  · exact Or.inl hc.symm
  · exact Or.inr (Or.inr (hwhole c hc))
  · split at hc
    · cases hc
    · next hne =>
      rcases List.mem_cons.mp hc with rfl | hc
      · exact Or.inr (Or.inl ⟨rfl, hne⟩)
      · exact Or.inr (Or.inr (hfraction c hc))

lemma concise_of_digits {text : List Char}
    (htext : text = signText s ++ (whole ++ if fraction = [] then [] else '.' :: fraction))
    (hwhole : ∀ c ∈ whole, c.isDigit) (hfraction : ∀ c ∈ fraction, c.isDigit)
    (hhead : fraction ≠ [] → whole.head? ≠ some '0') (hlast : fraction.getLast? ≠ some '0')
    (hminus : s = true → (readNumber text).isZero = false) : Concise text := by
  have hmem : ∀ c ∈ text, c = '-' ∧ s = true ∨ c = '.' ∧ fraction ≠ [] ∨ c.isDigit = true :=
    fun c hc => mem_digits hwhole hfraction (htext ▸ hc)
  have hpoint : '.' ∈ text → fraction ≠ [] := fun hc => by
    obtain ⟨hc, -⟩ | ⟨-, hne⟩ | hc := hmem _ hc
    · exact absurd hc (by decide)
    · exact hne
    · exact absurd hc (by decide)
  have hend : fraction ≠ [] → text.getLast? = fraction.getLast? := by
    intro hne
    rw [htext, if_neg hne, ← List.append_assoc, List.getLast?_append_of_ne_nil _ (List.cons_ne_nil _ _),
      List.getLast?_cons_of_ne_nil hne]
  constructor
  case plus =>
    intro hc
    obtain ⟨hc, -⟩ | ⟨hc, -⟩ | hc := hmem _ hc
    · exact absurd hc (by decide)
    · exact absurd hc (by decide)
    · exact absurd hc (by decide)
  case exponent =>
    intro c hc
    obtain ⟨rfl, -⟩ | ⟨rfl, -⟩ | hc := hmem _ hc
    · rfl
    · rfl
    · exact isExponentMark_of_isDigit (isDigit_of_isDigit hc)
  case lead =>
    intro front back heq
    have hne := hpoint (by simp [heq])
    have hbefore : '.' ∉ signText s ++ whole := by
      intro hc
      rcases List.mem_append.mp hc with hc | hc
      · exact absurd (mem_signText.mp hc).2 (by decide)
      · exact absurd (hwhole _ hc) (by decide)
    have hafter : '.' ∉ fraction := fun hc => absurd (hfraction _ hc) (by decide)
    rw [htext, if_neg hne, ← List.append_assoc, List.append_cons front,
      List.append_cons_inj_of_notMem hbefore hafter] at heq
    exact exists_digit_of_lead hwhole (hhead hne) heq.1
  case zero =>
    intro hc
    rw [hend (hpoint hc)]
    exact hlast
  case point =>
    intro hc
    have hne := hpoint (List.mem_of_getLast? hc)
    rw [hend hne] at hc
    exact absurd (hfraction _ (List.mem_of_getLast? hc)) (by decide)
  case minus =>
    intro hc
    obtain ⟨-, hs⟩ | ⟨hc, -⟩ | hc := hmem _ hc
    · exact hminus hs
    · exact absurd hc (by decide)
    · exact absurd hc (by decide)

end Shape

namespace Binary64

lemma isZero_readNumber_spelling {s : Bool} {n : ℕ} (hn : Representable n) (hpos : n ≠ 0) :
    (readNumber (finite s n hn).spelling).isZero = false := by
  rw [readNumber_spelling rfl, reread_finite s hn hpos, Bool.eq_false_iff]
  exact mt isZero_finite_iff.mp hpos

lemma concise_of_integer {s : Bool} {n : ℕ} {hn : Representable n}
    (hinteger : (finite s n hn).isInteger = true) : Concise (finite s n hn).spelling := by
  have htext : (finite s n hn).spelling = signText (decide (signedUnits s (n / one) < 0)) ++
      (Nat.toDigits 10 (signedUnits s (n / one)).natAbs ++ []) := by
    rw [spelling_integer hinteger, integerText, List.append_nil]
  refine @concise_of_digits _ _ [] _ htext (fun c hc => isDigit_of_mem_toDigits hc) (by simp)
    (by simp) (by simp) fun hs => isZero_readNumber_spelling hn ?_
  rintro rfl
  cases s <;> simp [signedUnits] at hs

lemma concise_of_fraction {s : Bool} {n : ℕ} (hn : Representable n) (hmod : n % one ≠ 0) :
    Concise (finite s n hn).spelling := by
  have hpos : n ≠ 0 := by
    rintro rfl
    exact hmod (Nat.zero_mod one)
  have hexponent := exponent_of_not_integer (s := s) hn hmod
  have hlast : (shortest s n hn).coefficient % 10 ≠ 0 := by
    obtain ⟨-, hwhole⟩ | hlast := last_toDecimal (finite s n hn)
    · exact absurd hwhole hexponent.ne
    · exact hlast
  obtain ⟨hhead, c, hc, hzero⟩ := Decimal.places_of_fraction hexponent hlast
  obtain ⟨hwhole, hfraction, -, -⟩ := Decimal.places_spec (shortest s n hn)
  have hne : (shortest s n hn).places.2 ≠ [] := by
    intro hnil
    rw [hnil] at hc
    cases hc
  have htext : (finite s n hn).spelling = signText s ++ ((shortest s n hn).places.1 ++
      if (shortest s n hn).places.2 = [] then [] else '.' :: (shortest s n hn).places.2) := by
    rw [spelling, if_neg hmod, if_neg hne]
    exact List.append_assoc ..
  refine concise_of_digits htext hwhole hfraction (fun _ => hhead) ?_
    fun _ => isZero_readNumber_spelling hn hpos
  rw [Option.mem_def.mp hc]
  exact fun h => hzero (Option.some.inj h)

/-- The text of a finite number is a literal of its value with nothing idle in it. -/
theorem concise_spelling {x : Binary64} (hx : x.isFinite) :
    isNumeral x.spelling ∧ x.equals (readNumber x.spelling) ∧ Concise x.spelling := by
  refine ⟨isNumeral_spelling hx, ?_, ?_⟩
  · rw [readNumber_spelling hx]
    exact equals_reread hx
  · obtain ⟨s, n, hn, rfl⟩ := exists_finite hx
    by_cases hinteger : (finite s n hn).isInteger = true
    · exact concise_of_integer hinteger
    · exact concise_of_fraction hn (mt beq_iff_eq.mpr hinteger)

theorem concise_spelling_least :
    (ofRatio true 1 1).isFinite ∧
      (ofRatio true 1 1).spelling = '-' :: '.' :: (List.replicate 323 '0' ++ ['5']) ∧
    isNumeral (ofRatio true 1 1).spelling ∧
      (ofRatio true 1 1).equals (readNumber (ofRatio true 1 1).spelling) ∧
      Concise (ofRatio true 1 1).spelling := by
  have hfinite : (ofRatio true 1 1).isFinite := by decide +kernel
  exact ⟨hfinite, by decide +kernel, concise_spelling hfinite⟩

end Binary64

end TersePath
