import TersePath.Proofs.Number.Spelling

/-! Number literals. A literal is a sign or none, digits with a fraction or a fraction alone, and an
exponent or none; it is read as the number that it writes. Reading takes a few texts more, with a point
behind the digits or digits of other scripts, and none besides. -/

namespace TersePath

inductive Sign where
  | none
  | plus
  | minus
deriving DecidableEq

namespace Sign

def text : Sign → List Char
  | none => []
  | plus => ['+']
  | minus => ['-']

def negative (sign : Sign) : Bool := sign = minus

end Sign

structure Exponent where
  mark : Char
  sign : Sign
  digits : List Char
  isMark : mark = 'e' ∨ mark = 'E'
  isDigit : ∀ c ∈ digits, c.isDigit
  ne_nil : digits ≠ []
deriving DecidableEq

namespace Exponent

def text (exponent : Exponent) : List Char := exponent.mark :: exponent.sign.text ++ exponent.digits

def value (exponent : Exponent) : ℤ :=
  if exponent.sign.negative then -digitsValue exponent.digits else digitsValue exponent.digits

end Exponent

structure Literal where
  sign : Sign
  whole : List Char
  fraction : List Char
  exponent : Option Exponent
  isDigit : ∀ c ∈ whole ++ fraction, c.isDigit
  ne_nil : whole ++ fraction ≠ []
deriving DecidableEq

namespace Literal

def body (literal : Literal) : List Char :=
  literal.whole ++ if literal.fraction = [] then [] else '.' :: literal.fraction

def exponentText (literal : Literal) : List Char := literal.exponent.elim [] Exponent.text

def text (literal : Literal) : List Char :=
  literal.sign.text ++ (literal.body ++ literal.exponentText)

def decimal (literal : Literal) : Decimal :=
  ⟨literal.sign.negative, digitsValue (literal.whole ++ literal.fraction),
    literal.exponent.elim 0 Exponent.value - literal.fraction.length⟩

lemma body_spec (literal : Literal) : Body literal.body literal.whole literal.fraction := by
  have hdigits := literal.isDigit
  rw [List.forall_mem_append] at hdigits
  refine ⟨?_, hdigits.1, hdigits.2, literal.ne_nil⟩
  rw [body]
  by_cases hfraction : literal.fraction = []
  · exact Or.inl ⟨by simp [hfraction], hfraction⟩
  · exact Or.inr (by rw [if_neg hfraction])

end Literal

namespace Numeral

lemma readSign_append (sign : Sign) {rest : List Char} (h : ∀ c ∈ rest.head?, c ≠ '-' ∧ c ≠ '+') :
    readSign (sign.text ++ rest) = (sign.negative, rest) := by
  cases sign with
  | plus => rfl
  | minus => rfl
  | none =>
    cases rest with
    | nil => rfl
    | cons c rest =>
      obtain ⟨hminus, hplus⟩ := h c rfl
      rw [Sign.text, List.nil_append]
      unfold readSign
      split
      · next heq => exact absurd (List.cons.inj heq).1 hminus
      · next heq => exact absurd (List.cons.inj heq).1 hplus
      · rfl

lemma ne_sign_of_digit {c : Char} (h : c.isDigit || c == '.') : c ≠ '-' ∧ c ≠ '+' := by
  constructor
  · rintro rfl
    exact absurd h (by decide)
  · rintro rfl
    exact absurd h (by decide)

lemma readExponent_text (exponent : Exponent) : readExponent exponent.text = (exponent.value, []) := by
  obtain ⟨mark, sign, digits, hmark, hdigit, hne⟩ := exponent
  have hsign : readSign (sign.text ++ digits) = (sign.negative, digits) := by
    refine readSign_append sign fun c hc => ne_sign_of_digit ?_
    rw [hdigit c (List.mem_of_head? (Option.mem_def.mp hc)), Bool.true_or]
  obtain ⟨htake, hdrop⟩ := takeWhile_digits hdigit nil_head
  rw [List.append_nil] at htake hdrop
  have hmarked : (mark == 'e' || mark == 'E') = true := by simpa using hmark
  simp [readExponent, Exponent.text, Exponent.value, hsign, htake, hdrop, hmarked, hne]

theorem read?_literal (literal : Literal) : read? literal.text = some literal.decimal := by
  have hbody := literal.body_spec
  obtain ⟨c, others, hcons, hc⟩ := hbody.exists_cons
  have hsign : readSign literal.text = (literal.sign.negative, literal.body ++ literal.exponentText) := by
    refine readSign_append literal.sign fun d hd => ?_
    rw [hcons] at hd
    obtain rfl : c = d := by simpa using hd
    exact ne_sign_of_digit hc
  have hrest : ∀ d ∈ literal.exponentText.head?, TersePath.isDigit d = false ∧ d ≠ '.' := by
    intro d hd
    rw [Literal.exponentText] at hd
    cases hexponent : literal.exponent with
    | none => simp [hexponent] at hd
    | some exponent =>
      obtain rfl : exponent.mark = d := by simpa [hexponent, Exponent.text] using hd
      rcases exponent.isMark with hmark | hmark <;> rw [hmark] <;> exact ⟨by decide, by decide⟩
  have hmantissa := readMantissa_append hbody hrest
  have hexponent : readExponent literal.exponentText =
      (literal.exponent.elim 0 Exponent.value, []) := by
    rw [Literal.exponentText]
    cases literal.exponent with
    | none => rfl
    | some exponent => exact readExponent_text exponent
  simp only [read?, readFront, hsign, hmantissa, hexponent, Literal.decimal]

def Exponential (text : List Char) : Prop :=
  ∃ (mark : Char) (sign : Sign) (digits : List Char), text = mark :: (sign.text ++ digits) ∧
    (mark = 'e' ∨ mark = 'E') ∧ digits ≠ [] ∧ ∀ c ∈ digits, isDigit c = true

/-- A sign or none, digits of any script with at most one point among or beside them, and an exponent
or none. -/
def Written (text : List Char) : Prop :=
  ∃ (sign : Sign) (whole fraction body exponent : List Char), text = sign.text ++ (body ++ exponent) ∧
    (body = whole ∧ fraction = [] ∨ body = whole ++ '.' :: fraction) ∧ whole ++ fraction ≠ [] ∧
    (∀ c ∈ whole ++ fraction, isDigit c = true) ∧ (exponent = [] ∨ Exponential exponent)

lemma exists_readSign (text : List Char) : ∃ sign : Sign, text = sign.text ++ (readSign text).2 := by
  unfold readSign
  split
  · exact ⟨.minus, rfl⟩
  · exact ⟨.plus, rfl⟩
  · exact ⟨.none, rfl⟩

lemma exists_of_readMantissa {text whole fraction rest : List Char}
    (h : readMantissa text = some (whole, fraction, rest)) :
    ∃ body, text = body ++ rest ∧ (body = whole ∧ fraction = [] ∨ body = whole ++ '.' :: fraction) ∧
      whole ++ fraction ≠ [] ∧ ∀ c ∈ whole ++ fraction, isDigit c = true := by
  have hdigits : ∀ text : List Char, ∀ c ∈ text.takeWhile isDigit, isDigit c = true :=
    fun _ _ hc => List.mem_takeWhile_imp hc
  have hparts : text.takeWhile isDigit ++ text.dropWhile isDigit = text := List.takeWhile_append_dropWhile
  unfold readMantissa at h
  dsimp only at h
  split at h
  · next fractional hpoint =>
    split at h
    · cases h
    · next hsome =>
      obtain ⟨rfl, rfl, rfl⟩ : _ ∧ _ ∧ _ := by simpa using h
      refine ⟨_, ?_, Or.inr rfl, by simpa using hsome, ?_⟩
      · rw [List.append_assoc, List.cons_append, List.takeWhile_append_dropWhile, ← hpoint, hparts]
      · exact List.forall_mem_append.mpr ⟨hdigits _, hdigits _⟩
  · split at h
    · cases h
    · next hsome =>
      obtain ⟨rfl, rfl, rfl⟩ : _ ∧ _ ∧ _ := by simpa using h
      exact ⟨_, hparts.symm, Or.inl ⟨rfl, rfl⟩, by simpa using hsome, by simpa using hdigits text⟩

lemma exponential_of_readExponent {text : List Char} (hne : text ≠ [])
    (h : (readExponent text).2 = []) : Exponential text := by
  obtain ⟨mark, after, rfl⟩ := List.exists_cons_of_ne_nil hne
  obtain ⟨sign, hsign⟩ := exists_readSign after
  unfold readExponent at h
  dsimp only at h
  split at h
  · next hmark =>
    rw [Bool.and_eq_true, Bool.or_eq_true, beq_iff_eq, beq_iff_eq] at hmark
    have hnone : (readSign after).2.dropWhile isDigit = [] := h
    have hdigits : ∀ c ∈ (readSign after).2, isDigit c = true := List.dropWhile_eq_nil_iff.mp hnone
    have hsome : (readSign after).2.takeWhile isDigit ≠ [] := by simpa using hmark.2
    rw [List.takeWhile_eq_self_iff.mpr hdigits] at hsome
    exact ⟨mark, sign, (readSign after).2, by rw [← hsign], hmark.1, hsome, hdigits⟩
  · cases h

theorem written_of_isNumeral {text : List Char} (h : isNumeral text) : Written text := by
  obtain ⟨value, hvalue⟩ := Option.isSome_iff_exists.mp h
  unfold read? at hvalue
  split at hvalue
  · next found hfront =>
    unfold readFront at hfront
    dsimp only at hfront
    split at hfront
    · cases hfront
    · next whole fraction exponent hmantissa =>
      obtain ⟨sign, hsign⟩ := exists_readSign text
      obtain ⟨body, hbody, hshape, hsome, hdigits⟩ := exists_of_readMantissa hmantissa
      have hend : (readExponent exponent).2 = [] := (Prod.mk.inj (Option.some.inj hfront)).2
      refine ⟨sign, whole, fraction, body, exponent, by rw [← hbody, ← hsign], hshape, hsome, hdigits, ?_⟩
      by_cases hnone : exponent = []
      · exact Or.inl hnone
      · exact Or.inr (exponential_of_readExponent hnone hend)
  · cases hvalue

lemma Written.last {text : List Char} (h : Written text) :
    ∀ c ∈ text.getLast?, isDigit c = true ∨ c = '.' := by
  obtain ⟨sign, whole, fraction, body, exponent, rfl, hshape, hsome, hdigits, hexponent⟩ := h
  have hbody : body ≠ [] ∧ ∀ c ∈ body, isDigit c = true ∨ c = '.' := by
    rw [List.forall_mem_append] at hdigits
    obtain ⟨rfl, rfl⟩ | rfl := hshape
    · exact ⟨by simpa using hsome, fun c hc => Or.inl (hdigits.1 c hc)⟩
    · refine ⟨by simp, List.forall_mem_append.mpr ⟨fun c hc => Or.inl (hdigits.1 c hc), ?_⟩⟩
      exact List.forall_mem_cons.mpr ⟨Or.inr rfl, fun c hc => Or.inl (hdigits.2 c hc)⟩
  intro c hc
  obtain rfl | ⟨mark, sign', digits, rfl, -, hne, hexponent⟩ := hexponent
  · rw [List.append_nil, List.getLast?_append_of_ne_nil _ hbody.1] at hc
    exact hbody.2 c (List.mem_of_getLast? (Option.mem_def.mp hc))
  · rw [← List.append_assoc, ← List.cons_append, ← List.append_assoc,
      List.getLast?_append_of_ne_nil _ hne] at hc
    exact Or.inl (hexponent c (List.mem_of_getLast? (Option.mem_def.mp hc)))

end Numeral

end TersePath
