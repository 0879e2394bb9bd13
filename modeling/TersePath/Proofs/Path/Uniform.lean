import TersePath.Proofs.Path.Separators

namespace TersePath

def Touching (text : List Char) : Prop :=
  ∃ digits d, digits ≠ [] ∧ (∀ c ∈ digits, isDigit c = true) ∧ isDigit d = true ∧
    '.' :: (digits ++ ['.', d]) <:+: text

def Flush (begins : Char → Bool) (text : List Char) : Prop :=
  text.IsChain fun b c => isBlank b = true → begins c = false

/-- Blanks are the only separators of a text, and none is where the next piece shows that it begins. -/
structure Uniform (text : List Char) : Prop where
  comma : ',' ∉ text
  fractions : ¬Touching text
  letters : Flush isCommandStart text
  minus : Flush (· == '-') text
  first : ∀ c ∈ text.head?, isBlank c = false
  last : ∀ c ∈ text.getLast?, isBlank c = false

section Characters

lemma isDigit_of_isAlpha {c : Char} (h : c.isAlpha = true) : isDigit c = false := by
  have hrange : 65 ≤ c.toNat ∧ c.toNat ≤ 122 := by
    simp only [Char.isAlpha, Char.isUpper, Char.isLower, Bool.or_eq_true, Bool.and_eq_true,
      decide_eq_true_eq, ge_iff_le, UInt32.le_iff_toNat_le] at h
    have hcode : c.val.toNat = c.toNat := rfl
    simp at h
    omega
  have hascii : c.isDigit = false := by
    rw [Bool.eq_false_iff]
    intro hdigit
    have hdigits : 48 ≤ c.toNat ∧ c.toNat ≤ 57 := by
      simpa [Char.isDigit, UInt32.le_iff_toNat_le] using hdigit
    omega
  rw [isDigit, digitValue?, hascii, if_neg Bool.false_ne_true, if_pos (by omega)]
  rfl

def Opens (begins : Char → Bool) : Prop :=
  ∀ c, begins c = true → c ≠ '.' ∧ isDigit c = false

lemma opens_isCommandStart : Opens isCommandStart := by
  intro c h
  have halpha : c.isAlpha = true := by
    rw [isCommandStart, Bool.and_eq_true, Bool.and_eq_true] at h
    exact h.1.1
  refine ⟨?_, isDigit_of_isAlpha halpha⟩
  rintro rfl
  exact absurd halpha (by decide)

lemma opens_minus : Opens (· == '-') := by
  intro c h
  obtain rfl : c = '-' := beq_iff_eq.mp h
  exact ⟨by decide, by decide⟩

end Characters

section Fractions

variable {part : NumberPart} {text : List Char}

def Parted : NumberPart → List Char → Prop
  | _, [] => True
  | part, c :: rest =>
    ¬(c = '.' ∧ part = .fraction ∧ startsWithDigit rest = true) ∧ Parted (part.after c) rest

lemma partFractions_cons_eq (part : NumberPart) (c : Char) (rest : List Char) :
    partFractions part (c :: rest) =
      if c = '.' ∧ part = .fraction ∧ startsWithDigit rest = true then
        ' ' :: '.' :: partFractions .point rest
      else c :: partFractions (part.after c) rest := by
  by_cases hpoint : c = '.'
  · subst hpoint
    rw [partFractions, if_pos rfl]
    simp [NumberPart.after]
  · rw [partFractions_cons fun h => absurd h hpoint, if_neg fun h => hpoint h.1]

lemma startsWithDigit_partFractions (part : NumberPart) (text : List Char) :
    startsWithDigit (partFractions part text) = startsWithDigit text := by
  cases text with
  | nil => rfl
  | cons c rest =>
    rw [partFractions_cons_eq]
    split
    · next h =>
      rw [h.1]
      change isDigit ' ' = isDigit '.'
      decide
    · rfl

lemma parted_partFractions (part : NumberPart) (text : List Char) :
    Parted part (partFractions part text) := by
  induction text generalizing part with
  | nil => trivial
  | cons c rest ih =>
    rw [partFractions_cons_eq]
    split
    · -- behind the space the point begins a number of its own
      have hspace : part.after ' ' = .whole := by
        have hdigit : isDigit ' ' = false := by decide
        simp [NumberPart.after, hdigit]
      refine ⟨fun h => absurd h.1 (by decide), ?_⟩
      rw [hspace]
      exact ⟨fun h => absurd h.2.1 (by simp), ih .point⟩
    · next h =>
      rw [← startsWithDigit_partFractions (part.after c) rest] at h
      exact ⟨h, ih _⟩

lemma Parted.partFractions_eq (h : Parted part text) : partFractions part text = text := by
  induction text generalizing part with
  | nil => rfl
  | cons c rest ih => rw [partFractions_cons_eq, if_neg h.1, ih h.2]

lemma Parted.of_append {front rest : List Char} (h : Parted part (front ++ rest)) :
    ∃ next, Parted next rest := by
  induction front generalizing part with
  | nil => exact ⟨part, h⟩
  | cons c front ih => exact ih h.2

lemma Parted.of_digits {digits rest : List Char} (hpart : part ≠ .whole) (hne : digits ≠ [])
    (hdigits : ∀ c ∈ digits, isDigit c = true) (h : Parted part (digits ++ rest)) :
    Parted .fraction rest := by
  induction digits generalizing part with
  | nil => exact absurd rfl hne
  | cons c digits ih =>
    obtain ⟨hc, hothers⟩ := List.forall_mem_cons.mp hdigits
    have hpoint : c ≠ '.' := by
      rintro rfl
      exact absurd hc (by decide)
    have hafter : part.after c = .fraction := by simp [NumberPart.after, hpoint, hc, hpart]
    have hrest : Parted .fraction (digits ++ rest) := hafter ▸ h.2
    by_cases hlast : digits = []
    · rwa [hlast, List.nil_append] at hrest
    · exact ih (by simp) hlast hothers hrest

lemma Parted.not_touching (h : Parted part text) : ¬Touching text := by
  rintro ⟨digits, d, hne, hdigits, hd, front, back, rfl⟩
  rw [List.append_assoc] at h
  obtain ⟨next, hnext⟩ := h.of_append
  have hpoint : next.after '.' = .point := rfl
  have hfraction : Parted .point (digits ++ '.' :: d :: back) := by
    have htail := hnext.2
    rw [hpoint] at htail
    simpa using htail
  exact (hfraction.of_digits (by simp) hne hdigits).1 ⟨rfl, rfl, hd⟩

def NumberPart.Ends : NumberPart → List Char → Prop
  | .whole, _ => True
  | .point, front => ['.'] <:+ front
  | .fraction, front =>
    ∃ digits, digits ≠ [] ∧ (∀ c ∈ digits, isDigit c = true) ∧ '.' :: digits <:+ front

lemma NumberPart.Ends.after {front : List Char} (h : part.Ends front) (c : Char) :
    (part.after c).Ends (front ++ [c]) := by
  rw [NumberPart.after]
  split
  · next hpoint =>
    rw [hpoint]
    exact List.suffix_append front ['.']
  · split
    · next hdigit =>
      obtain ⟨hc, hpart⟩ := hdigit
      cases part with
      | whole => exact absurd rfl hpart
      | point =>
        obtain ⟨others, rfl⟩ := h
        exact ⟨[c], by simp, by simpa using hc, others, by simp⟩
      | fraction =>
        obtain ⟨digits, -, hdigits, others, rfl⟩ := h
        refine ⟨digits ++ [c], by simp, ?_, others, by simp⟩
        exact List.forall_mem_append.mpr ⟨hdigits, List.forall_mem_singleton.mpr hc⟩
    · trivial

lemma parted_of_not_touching {front : List Char} (hfront : part.Ends front)
    (h : ¬Touching (front ++ text)) : Parted part text := by
  induction text generalizing part front with
  | nil => trivial
  | cons c rest ih =>
    refine ⟨?_, ih (hfront.after c) (by simpa using h)⟩
    rintro ⟨rfl, rfl, hstart⟩
    obtain ⟨digits, hne, hdigits, others, rfl⟩ := hfront
    cases rest with
    | nil => cases hstart
    | cons d rest => exact h ⟨digits, d, hne, hdigits, hstart, others, rest, by simp⟩

lemma parted_iff : Parted .whole text ↔ ¬Touching text :=
  ⟨Parted.not_touching, fun h => parted_of_not_touching (show NumberPart.whole.Ends [] from trivial) h⟩

end Fractions

section Blanks

variable {begins : Char → Bool} {part : NumberPart} {text : List Char}

lemma dropBlanksBefore_sublist (begins : Char → Bool) (text : List Char) :
    (dropBlanksBefore begins text).Sublist text := by
  induction text with
  | nil => exact .slnil
  | cons c rest ih =>
    rw [dropBlanksBefore_cons]
    split
    · exact ih.cons c
    · exact ih.cons_cons c

lemma head?_dropBlanksBefore (begins : Char → Bool) (text : List Char) :
    (dropBlanksBefore begins text).head? = text.head? ∨
      (dropBlanksBefore begins text).head?.any begins = true := by
  cases text with
  | nil => exact Or.inl rfl
  | cons c rest =>
    rw [dropBlanksBefore_cons]
    split
    · next h => exact Or.inr (Bool.and_eq_true_iff.mp h).2
    · exact Or.inl rfl

lemma flush_dropBlanksBefore (begins : Char → Bool) (text : List Char) :
    Flush begins (dropBlanksBefore begins text) := by
  induction text with
  | nil => exact .nil
  | cons c rest ih =>
    rw [dropBlanksBefore_cons]
    split
    · exact ih
    · next h =>
      refine ih.cons fun d hd hblank => ?_
      rw [hblank, Bool.true_and, Option.mem_def.mp hd] at h
      simpa using h

lemma flush_dropBlanksBefore_of_flush {other : Char → Bool} (h : Flush other text)
    (begins : Char → Bool) : Flush other (dropBlanksBefore begins text) := by
  induction text with
  | nil => exact .nil
  | cons c rest ih =>
    have hrest := ih h.tail
    rw [dropBlanksBefore_cons]
    split
    · exact hrest
    · next hkeep =>
      refine hrest.cons fun d hd hblank => ?_
      obtain hsame | hdrop := head?_dropBlanksBefore begins rest
      · exact h.rel_head? (hsame ▸ hd) hblank
      · rw [hblank, hdrop] at hkeep
        exact absurd rfl hkeep

lemma dropBlanksBefore_of_flush (h : Flush begins text) : dropBlanksBefore begins text = text := by
  induction text with
  | nil => rfl
  | cons c rest ih =>
    rw [dropBlanksBefore_cons, ih h.tail, if_neg]
    rw [Bool.and_eq_true]
    rintro ⟨hblank, hbegins⟩
    cases rest with
    | nil => cases hbegins
    | cons d rest => cases hbegins.symm.trans (h.rel_head? rfl hblank)

lemma startsWithDigit_dropBlanksBefore (hbegins : Opens begins) (text : List Char)
    (h : startsWithDigit (dropBlanksBefore begins text) = true) : startsWithDigit text = true := by
  have hhead : ∀ text, startsWithDigit text = text.head?.any isDigit := by
    intro text
    cases text <;> rfl
  rw [hhead] at h ⊢
  obtain hsame | hdrop := head?_dropBlanksBefore begins text
  · rwa [hsame] at h
  · cases hfirst : (dropBlanksBefore begins text).head? with
    | none => simp [hfirst] at h
    | some d =>
      rw [hfirst] at h hdrop
      cases h.symm.trans (hbegins d hdrop).2

lemma after_of_not_digit {c : Char} (hpoint : c ≠ '.') (hdigit : isDigit c = false)
    (part : NumberPart) : part.after c = .whole := by
  simp [NumberPart.after, hpoint, hdigit]

lemma Parted.of_opens {d : Char} {rest : List Char} (hpoint : d ≠ '.') (hdigit : isDigit d = false)
    (h : Parted part (d :: rest)) (other : NumberPart) : Parted other (d :: rest) := by
  refine ⟨fun hd => hpoint hd.1, ?_⟩
  rw [after_of_not_digit hpoint hdigit, ← after_of_not_digit hpoint hdigit part]
  exact h.2

lemma parted_dropBlanksBefore (hbegins : Opens begins) (h : Parted part text) :
    Parted part (dropBlanksBefore begins text) := by
  induction text generalizing part with
  | nil => trivial
  | cons c rest ih =>
    have hrest := ih h.2
    rw [dropBlanksBefore_cons]
    split
    · next hdrop =>
      cases hfirst : dropBlanksBefore begins rest with
      | nil => trivial
      | cons d others =>
        rw [hfirst] at hdrop hrest
        obtain ⟨hpoint, hdigit⟩ := hbegins d (Bool.and_eq_true_iff.mp hdrop).2
        exact hrest.of_opens hpoint hdigit part
    · refine ⟨fun hc => h.1 ⟨hc.1, hc.2.1, ?_⟩, hrest⟩
      exact startsWithDigit_dropBlanksBefore hbegins rest hc.2.2

end Blanks

section Ends

variable {text : List Char}

lemma trim_isInfix (text : List Char) : trim text <:+: text := by
  obtain ⟨blanks, hblanks, -⟩ := exists_trimEnd (text.dropWhile isBlank)
  have hfront : trim text <+: text.dropWhile isBlank := ⟨blanks, hblanks.symm⟩
  exact hfront.isInfix.trans (List.dropWhile_suffix isBlank).isInfix

lemma trim_of_ends (hfirst : ∀ c ∈ text.head?, isBlank c = false) (hlast : EndsPlain text) :
    trim text = text := by
  have hdrop : text.dropWhile isBlank = text := by
    cases text with
    | nil => rfl
    | cons c rest => exact List.dropWhile_cons_of_neg (by simp [hfirst c rfl])
  rw [trim, hdrop, trimEnd_eq hlast]

end Ends

section Squeeze

lemma comma_notMem_partFractions (part : NumberPart) {text : List Char} (h : ',' ∉ text) :
    ',' ∉ partFractions part text := by
  induction text generalizing part with
  | nil => exact h
  | cons c rest ih =>
    rw [List.mem_cons, not_or] at h
    rw [partFractions_cons_eq]
    split
    · simp [ih _ h.2]
    · simp [ih _ h.2, h.1]

lemma comma_notMem_squeeze (part : NumberPart) (text : List Char) : ',' ∉ squeeze part text := by
  have hspaced : ',' ∉ text.map fun c => if c = ',' then ' ' else c := by
    rw [List.mem_map]
    rintro ⟨c, -, hc⟩
    split at hc
    · exact absurd hc (by decide)
    · next hne => exact hne hc
  intro hmem
  have hletters := (dropBlanksBefore_sublist _ _).mem hmem
  exact comma_notMem_partFractions part hspaced ((dropBlanksBefore_sublist _ _).mem hletters)

lemma parted_squeeze (part : NumberPart) (text : List Char) : Parted part (squeeze part text) :=
  parted_dropBlanksBefore opens_minus
    (parted_dropBlanksBefore opens_isCommandStart (parted_partFractions part _))

lemma flush_squeeze (part : NumberPart) (text : List Char) :
    Flush isCommandStart (squeeze part text) ∧ Flush (· == '-') (squeeze part text) :=
  ⟨flush_dropBlanksBefore_of_flush (flush_dropBlanksBefore _ _) _, flush_dropBlanksBefore _ _⟩

end Squeeze

theorem uniform_normalizeSeparators (text : List Char) : Uniform (normalizeSeparators text) := by
  rw [normalizeSeparators_eq]
  have hwithin := trim_isInfix (squeeze .whole text)
  obtain ⟨hletters, hminus⟩ := flush_squeeze .whole text
  exact {
    comma := fun hmem => comma_notMem_squeeze .whole text (hwithin.mem hmem)
    fractions := fun ⟨digits, d, hne, hdigits, hd, htouch⟩ =>
      (parted_squeeze .whole text).not_touching ⟨digits, d, hne, hdigits, hd, htouch.trans hwithin⟩
    letters := List.IsChain.infix hletters hwithin
    minus := List.IsChain.infix hminus hwithin
    first := fun _ hc => head?_trim (Option.mem_def.mp hc)
    last := fun _ hc => getLast?_trim (Option.mem_def.mp hc) }

theorem normalizeSeparators_of_uniform {text : List Char} (h : Uniform text) :
    normalizeSeparators text = text := by
  have hspaced : (text.map fun c => if c = ',' then ' ' else c) = text := by
    refine (List.map_congr_left fun c hc => if_neg ?_).trans (List.map_id text)
    rintro rfl
    exact h.comma hc
  rw [normalizeSeparators_eq, squeeze, hspaced, (parted_iff.mpr h.fractions).partFractions_eq,
    dropBlanksBefore_of_flush h.letters, dropBlanksBefore_of_flush h.minus, trim_of_ends h.first h.last]

/-- Normalizing a second time changes nothing, for it changes nothing in just the texts whose separators
are plain. -/
theorem normalizeSeparators_idem (text : List Char) :
    normalizeSeparators (normalizeSeparators text) = normalizeSeparators text ∧
      (normalizeSeparators text = text ↔ Uniform text) := by
  refine ⟨normalizeSeparators_of_uniform (uniform_normalizeSeparators text), fun h => ?_,
    normalizeSeparators_of_uniform⟩
  rw [← h]
  exact uniform_normalizeSeparators text

example : normalizeSeparators " M 1.5.5 , -2\t z ".toList = "M 1.5 .5-2z".toList := by decide

end TersePath
