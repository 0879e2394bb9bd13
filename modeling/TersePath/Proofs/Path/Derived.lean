import TersePath.Proofs.Path.Grammar
import TersePath.Proofs.Path.Reread

/-! Texts of the grammar read as what they say. Reading knows no flags and no points behind an exponent: it
parts a text at blanks, at signs and where a fraction is followed by a point. Where no other arguments
touch, every argument becomes a field of its own. -/

namespace TersePath

lemma isGap_of_isSpace {c : Char} (h : isSpace c) : IsGap c := by
  have hcode : c = Char.ofNat c.toNat := (Char.ofNat_toNat c).symm
  rw [isSpace, List.contains_iff_mem] at h
  simp only [List.mem_cons, List.not_mem_nil, or_false] at h
  rcases h with h | h | h | h | h <;> rw [h] at hcode <;> subst hcode <;>
    exact ⟨by decide, by decide, by decide⟩

lemma sign_spec {c : Char} (h : isSign c) : isBlank c = false ∧ isCommandStart c = false ∧
    isExponentMark c = false ∧ isDigit c = false ∧ c ≠ ',' ∧ c ≠ '.' := by
  rw [isSign, Bool.or_eq_true, beq_iff_eq, beq_iff_eq] at h
  rcases h with rfl | rfl <;> decide

lemma mark_spec {c : Char} (h : c = 'e' ∨ c = 'E') : isBlank c = false ∧ isCommandStart c = false ∧
    isSign c = false ∧ isExponentMark c = true ∧ isDigit c = false ∧ c ≠ ',' ∧ c ≠ '.' := by
  rcases h with rfl | rfl <;> decide

lemma squeeze_sign {part : NumberPart} {c : Char} (h : isSign c) (rest : List Char) :
    squeeze part (c :: rest) = c :: squeeze .whole rest := by
  obtain ⟨hblank, -, -, hdigit, hcomma, hpoint⟩ := sign_spec h
  have hafter : part.after c = .whole := by simp [NumberPart.after, hdigit, hpoint]
  rw [squeeze_cons hblank hcomma (fun h => absurd h hpoint), hafter]

namespace Literal

variable {literal : Literal} {c : Char}

lemma isPlain_body (literal : Literal) : ∀ c ∈ literal.body, isPlain c := literal.body_spec.isPlain

lemma isSign_of_mem_text {sign : Sign} (h : c ∈ sign.text) : isSign c = true := by
  cases sign with
  | none => cases h
  | plus | minus =>
    obtain rfl := List.mem_singleton.mp h
    rfl

lemma isChain_unsigned (sign : Sign) {text : List Char} (h : ∀ c ∈ text, isPlain c) :
    (sign.text ++ text).IsChain fun x y => continuesField x y = true := by
  refine isChain_of_unsigned (fun c hc => ?_) fun c hc => ?_
  · rcases List.mem_append.mp hc with hc | hc
    · exact (sign_spec (isSign_of_mem_text hc)).1
    · exact isBlank_of_isPlain (h c hc)
  · cases sign with
    | none => exact isSign_of_isPlain (h c (List.mem_of_mem_tail hc))
    | plus | minus => exact isSign_of_isPlain (h c hc)

lemma mem_exponentText (h : c ∈ literal.exponentText) :
    (c = 'e' ∨ c = 'E') ∨ isSign c = true ∨ c.isDigit = true := by
  rw [exponentText] at h
  cases hexponent : literal.exponent with
  | none => simp [hexponent] at h
  | some exponent =>
    rw [hexponent, Option.elim_some, Exponent.text, List.cons_append, List.mem_cons,
      List.mem_append] at h
    rcases h with rfl | h | h
    · exact Or.inl exponent.isMark
    · exact Or.inr (Or.inl (isSign_of_mem_text h))
    · exact Or.inr (Or.inr (exponent.isDigit c h))

lemma mem_text (h : c ∈ literal.text) : isBlank c = false ∧ isCommandStart c = false ∧ c ≠ ',' := by
  have hsigned : isSign c → isBlank c = false ∧ isCommandStart c = false ∧ c ≠ ',' := fun hsign =>
    ⟨(sign_spec hsign).1, (sign_spec hsign).2.1, (sign_spec hsign).2.2.2.2.1⟩
  have hplain : isPlain c → isBlank c = false ∧ isCommandStart c = false ∧ c ≠ ',' := fun hplain =>
    ⟨isBlank_of_isPlain hplain, isCommandStart_of_isPlain hplain, (isPlain_spec hplain).2.2.2.2⟩
  rw [text, List.mem_append, List.mem_append] at h
  rcases h with h | h | h
  · exact hsigned (isSign_of_mem_text h)
  · exact hplain (literal.isPlain_body c h)
  · rcases mem_exponentText h with hmark | hsign | hdigit
    · exact ⟨(mark_spec hmark).1, (mark_spec hmark).2.1, (mark_spec hmark).2.2.2.2.2.1⟩
    · exact hsigned hsign
    · exact hplain (isPlain_of_isDigit hdigit)

lemma body_ne_nil (literal : Literal) : literal.body ≠ [] := by
  obtain ⟨c, rest, hcons, -⟩ := literal.body_spec.exists_cons
  simp [hcons]

lemma isChain_text (literal : Literal) :
    literal.text.IsChain fun x y => continuesField x y = true := by
  have hfront := isChain_unsigned literal.sign literal.isPlain_body
  rw [text, ← List.append_assoc, exponentText]
  cases hexponent : literal.exponent with
  | none => simpa using hfront
  | some exponent =>
    obtain ⟨hblank, -, hsign, hmark, -⟩ := mark_spec exponent.isMark
    have hdigits : ∀ c ∈ exponent.digits, isPlain c := fun c hc =>
      isPlain_of_isDigit (exponent.isDigit c hc)
    rw [Option.elim_some, List.isChain_append]
    refine ⟨hfront, ?_, fun x hx y hy => ?_⟩
    · have hrest := isChain_unsigned exponent.sign hdigits
      have hnonblank : ∀ c ∈ exponent.sign.text ++ exponent.digits, isBlank c = false := by
        intro c hc
        rcases List.mem_append.mp hc with hc | hc
        · exact (sign_spec (isSign_of_mem_text hc)).1
        · exact isBlank_of_isPlain (hdigits c hc)
      rw [Exponent.text, List.cons_append, List.isChain_cons]
      refine ⟨fun y hy => ?_, hrest⟩
      simp [continuesField, hblank, hmark, hnonblank y (List.mem_of_head? (Option.mem_def.mp hy))]
    · obtain rfl : exponent.mark = y := by simpa [Exponent.text] using hy
      rw [List.getLast?_append_of_ne_nil _ literal.body_ne_nil] at hx
      have hplain := literal.isPlain_body x (List.mem_of_getLast? (Option.mem_def.mp hx))
      simp [continuesField, hblank, hsign, isBlank_of_isPlain hplain]

lemma last_text (literal : Literal) : ∀ c ∈ literal.text.getLast?, isExponentMark c = false := by
  intro c hc
  have hlast : isPlain c := by
    rw [text, exponentText] at hc
    cases hexponent : literal.exponent with
    | none =>
      rw [hexponent, Option.elim_none, List.append_nil,
        List.getLast?_append_of_ne_nil _ literal.body_ne_nil] at hc
      exact literal.isPlain_body c (List.mem_of_getLast? (Option.mem_def.mp hc))
    | some exponent =>
      have hne : exponent.text ≠ [] := by simp [Exponent.text]
      rw [hexponent, Option.elim_some, ← List.append_assoc, List.getLast?_append_of_ne_nil _ hne,
        Exponent.text, List.getLast?_append_of_ne_nil _ exponent.ne_nil] at hc
      exact isPlain_of_isDigit
        (exponent.isDigit c (List.mem_of_getLast? (Option.mem_def.mp hc)))
  exact isExponentMark_of_isPlain hlast

lemma solid (literal : Literal) : Solid literal.text where
  ne_nil := by simp [text, literal.body_ne_nil]
  isChain := literal.isChain_text
  isBlank := fun _ hc => (mem_text hc).1
  isCommandStart := fun _ hc => (mem_text hc).2.1
  last := literal.last_text

lemma strayExponent_text (literal : Literal) : strayExponent literal.text = false := by
  obtain ⟨c, rest, hcons, -⟩ := literal.body_spec.exists_cons
  have hplain : isPlain c := literal.isPlain_body c (by simp [hcons])
  have hmark := isExponentMark_of_isPlain hplain
  rw [text, hcons]
  cases literal.sign with
  | none => simp [Sign.text, strayExponent, hmark, isSign_of_isPlain hplain]
  | plus | minus =>
    simp only [Sign.text, List.cons_append, List.nil_append, strayExponent, List.head?_cons,
      Option.any_some, hmark, Bool.and_false, Bool.or_false]
    decide

lemma readField_text (strict : Bool) (literal : Literal) :
    readField strict literal.text = .ok literal.decimal.toBinary64 := by
  have hread := Numeral.read?_literal literal
  have hnumeral : isNumeral literal.text := by
    rw [isNumeral, hread]
    rfl
  rw [readField, literal.strayExponent_text, hnumeral, readNumber, hread]
  simp

lemma squeeze_signText (sign : Sign) (rest : List Char) :
    squeeze .whole (sign.text ++ rest) = sign.text ++ squeeze .whole rest := by
  cases sign with
  | none => rfl
  | plus | minus => exact squeeze_sign rfl rest

lemma squeeze_exponent (part : NumberPart) (exponent : Exponent) (rest : List Char) :
    squeeze part (exponent.text ++ rest) = exponent.text ++ squeeze .whole rest := by
  obtain ⟨hblank, -, -, -, hdigit, hcomma, hpoint⟩ := mark_spec exponent.isMark
  have hafter : part.after exponent.mark = .whole := by simp [NumberPart.after, hdigit, hpoint]
  rw [Exponent.text, List.cons_append, List.cons_append, List.append_assoc,
    squeeze_cons hblank hcomma (fun h => absurd h hpoint), hafter, squeeze_signText,
    squeeze_whole exponent.isDigit, List.cons_append, List.append_assoc]

end Literal

namespace Argument

variable {argument before : Argument}

lemma isDigit_flag {set : Bool} {c : Char} (h : c ∈ text (flag set)) : c.isDigit := by
  obtain rfl := List.mem_singleton.mp h
  cases set with
  | true => rfl
  | false => rfl

lemma solid (argument : Argument) : Solid argument.text := by
  cases argument with
  | number literal => exact literal.solid
  | flag set =>
    have hplain : ∀ c ∈ text (flag set), isPlain c := fun c hc => isPlain_of_isDigit (isDigit_flag hc)
    have hspelled : Spelled (text (flag set)) := ⟨false, _, rfl, List.cons_ne_nil _ _, hplain⟩
    exact hspelled.solid

lemma ne_comma {c : Char} (h : c ∈ argument.text) : c ≠ ',' := by
  cases argument with
  | number literal => exact (Literal.mem_text h).2.2
  | flag set => exact (isPlain_spec (isPlain_of_isDigit (isDigit_flag h))).2.2.2.2

lemma readField_text (strict : Bool) (argument : Argument) :
    readField strict argument.text = .ok argument.value := by
  cases argument with
  | number literal => exact literal.readField_text strict
  | flag set => cases set <;> cases strict <;> decide +kernel

lemma exists_squeeze (argument : Argument) : ∃ next, (argument.endsInFraction → next = .fraction) ∧
    ∀ rest, squeeze .whole (argument.text ++ rest) = argument.text ++ squeeze next rest := by
  cases argument with
  | flag set =>
    refine ⟨.whole, fun h => (by cases h), fun rest => ?_⟩
    exact squeeze_whole (fun c hc => isDigit_flag hc) rest
  | number literal =>
    obtain ⟨next, hfraction, hnext⟩ := squeeze_body literal.body_spec
    cases hexponent : literal.exponent with
    | none =>
      refine ⟨next, fun h => hfraction ?_, fun rest => ?_⟩
      · simpa [endsInFraction, hexponent] using h
      · rw [text, Literal.text, Literal.exponentText, hexponent, Option.elim_none, List.append_nil,
          List.append_assoc, Literal.squeeze_signText, hnext, List.append_assoc]
    | some exponent =>
      refine ⟨.whole, fun h => ?_, fun rest => ?_⟩
      · simp [endsInFraction, hexponent] at h
      · rw [text, Literal.text, Literal.exponentText, hexponent, Option.elim_some, List.append_assoc,
          List.append_assoc, Literal.squeeze_signText, hnext, Literal.squeeze_exponent,
          List.append_assoc, List.append_assoc]

lemma exists_of_isSigned (h : argument.isSigned) :
    ∃ c rest, argument.text = c :: rest ∧ isSign c = true := by
  cases argument with
  | flag set => cases h
  | number literal =>
    rw [text, Literal.text]
    rw [isSigned] at h
    cases hsign : literal.sign with
    | none => simp [hsign] at h
    | plus => exact ⟨'+', _, rfl, rfl⟩
    | minus => exact ⟨'-', _, rfl, rfl⟩

lemma isSigned_of_head {c : Char} (h : argument.text.head? = some c) (hsign : isSign c) :
    argument.isSigned := by
  cases argument with
  | flag set =>
    have hplain := isPlain_of_isDigit (isDigit_flag (List.mem_of_head? h))
    rw [isSign_of_isPlain hplain] at hsign
    cases hsign
  | number literal =>
    obtain ⟨d, rest, hcons, -⟩ := literal.body_spec.exists_cons
    have hplain : isPlain d := literal.isPlain_body d (by simp [hcons])
    rw [isSigned]
    cases hnone : literal.sign with
    | plus | minus => rfl
    | none =>
      obtain rfl : d = c := by simpa [text, Literal.text, hnone, Sign.text, hcons] using h
      rw [isSign_of_isPlain hplain] at hsign
      cases hsign

lemma exists_of_beginsWithPoint (h : argument.beginsWithPoint) :
    ∃ rest, argument.text = '.' :: rest ∧ startsWithDigit rest = true := by
  cases argument with
  | flag set => cases h
  | number literal =>
    simp only [beginsWithPoint, Bool.and_eq_true, beq_iff_eq, List.isEmpty_iff] at h
    obtain ⟨hsign, hwhole⟩ := h
    have hne := literal.ne_nil
    have hdigit := literal.isDigit
    rw [hwhole, List.nil_append] at hne hdigit
    rw [text, Literal.text, Literal.body, hsign, hwhole, if_neg hne]
    obtain ⟨c, rest, hcons⟩ := List.exists_cons_of_ne_nil hne
    refine ⟨literal.fraction ++ literal.exponentText, rfl, ?_⟩
    rw [hcons] at hdigit ⊢
    exact isDigit_of_isDigit (hdigit c List.mem_cons_self)

end Argument

lemma squeeze_point {digits : List Char} (h : startsWithDigit digits) (rest : List Char) :
    squeeze .fraction ('.' :: (digits ++ rest)) =
      ' ' :: squeeze .whole ('.' :: (digits ++ rest)) := by
  obtain ⟨d, others, rfl⟩ : ∃ d others, digits = d :: others := by
    cases digits with
    | nil => cases h
    | cons d others => exact ⟨d, others, rfl⟩
  have hd : isDigit d := h
  have hcomma : d ≠ ',' := by
    rintro rfl
    exact absurd hd (by decide)
  have hpoint : isBlank '.' = false := by decide
  have hspace : ∀ begins : Char → Bool, begins ' ' = false → begins '.' = false → ∀ text,
      dropBlanksBefore begins (' ' :: '.' :: text) = ' ' :: '.' :: dropBlanksBefore begins text := by
    intro begins hblank hbegins text
    have hdrop := dropBlanksBefore_blanks begins (List.forall_mem_singleton.mpr ⟨rfl, hblank⟩)
      hpoint text
    rwa [hbegins] at hdrop
  have hwhole : ∀ text, partFractions .whole ('.' :: text) = '.' :: partFractions .point text :=
    fun text => partFractions_cons (by simp) text
  have hparted : ∀ text, partFractions .fraction ('.' :: d :: text) =
      ' ' :: partFractions .whole ('.' :: d :: text) := by
    intro text
    rw [hwhole, partFractions.eq_2, if_pos rfl, if_pos ⟨rfl, hd⟩]
  have hdropped : ∀ begins : Char → Bool, ∀ text,
      dropBlanksBefore begins ('.' :: text) = '.' :: dropBlanksBefore begins text :=
    fun begins => dropBlanksBefore_of_not_blank begins hpoint
  rw [List.cons_append, squeeze, squeeze, List.map_cons, List.map_cons, if_neg (by decide),
    if_neg hcomma, hparted, hwhole, hspace _ (by decide) (by decide),
    hspace _ (by decide) (by decide), hdropped, hdropped]

structure Parts (part : NumberPart) (gap : Gap) (argument : Argument) (kept : List Char)
    (next : NumberPart) : Prop where
  blank : ∀ b ∈ kept, isBlank b = true
  fraction : argument.endsInFraction → next = .fraction
  squeeze : ∀ rest, squeeze part (gap.text ++ (argument.text ++ rest)) =
    kept ++ (argument.text ++ squeeze next rest)

section Gap

variable {part : NumberPart} {gap : Gap} {argument : Argument}

lemma squeeze_comma (part : NumberPart) (text rest : List Char) :
    squeeze part (text ++ rest) =
      squeeze part (text.map (fun c => if c = ',' then ' ' else c) ++ rest) := by
  have hcomma : ∀ c : Char, (if (if c = ',' then ' ' else c) = ',' then ' '
      else if c = ',' then ' ' else c) = if c = ',' then ' ' else c := by
    intro c
    by_cases h : c = ','
    · rw [if_pos h, if_neg (by decide)]
    · rw [if_neg h, if_neg h]
  simp only [squeeze, List.map_append, List.map_map, Function.comp_def, hcomma]

lemma isGap_gap (gap : Gap) :
    ∀ b ∈ gap.text.map (fun c => if c = ',' then ' ' else c), IsGap b := by
  intro b hb
  obtain ⟨c, hc, rfl⟩ := List.mem_map.mp hb
  have hspace : IsGap ' ' := ⟨by decide, by decide, by decide⟩
  rw [Gap.text, List.mem_append, List.mem_append] at hc
  split
  · exact hspace
  · next hne =>
    rcases hc with hc | hc | hc
    · exact isGap_of_isSpace (gap.before.blank c hc)
    · split at hc
      · exact absurd (List.mem_singleton.mp hc) hne
      · cases hc
    · exact isGap_of_isSpace (gap.after.blank c hc)

lemma parts_of_gap (part : NumberPart) (argument : Argument) (h : gap.text ≠ []) :
    ∃ kept next, Parts part gap argument kept next ∧ (kept = [] → argument.isSigned) := by
  obtain ⟨next, hfraction, hnext⟩ := argument.exists_squeeze
  have hsolid := argument.solid
  obtain ⟨c, others, hcons⟩ := List.exists_cons_of_ne_nil hsolid.ne_nil
  have hc : c ∈ argument.text := by simp [hcons]
  have hgap := isGap_gap gap
  have hne : gap.text.map (fun c => if c = ',' then ' ' else c) ≠ [] := by simpa using h
  have hsqueeze : ∀ rest, squeeze part (gap.text ++ (argument.text ++ rest)) =
      (if isCommandStart c || c == '-' then [] else
        gap.text.map fun c => if c = ',' then ' ' else c) ++ (argument.text ++ squeeze next rest) := by
    intro rest
    rw [squeeze_comma, ← hnext, hcons, List.cons_append,
      squeeze_blanks part hne hgap (hsolid.isBlank c hc) (Argument.ne_comma hc)]
  refine ⟨_, next, ⟨fun b hb => ?_, hfraction, hsqueeze⟩, fun hnil => ?_⟩
  · split at hb
    · cases hb
    · exact (hgap b hb).isBlank
  · split at hnil
    · next hstart =>
      rw [hsolid.isCommandStart c hc, Bool.false_or, beq_iff_eq] at hstart
      exact Argument.isSigned_of_head (by rw [hcons]; rfl) (by rw [hstart]; rfl)
    · exact absurd hnil hne

lemma parts_of_touch (h : gap.text = [])
    (htouch : argument.isSigned ∨ argument.beginsWithPoint ∧ part = .fraction) :
    ∃ kept next, Parts part gap argument kept next ∧ (kept = [] → argument.isSigned) := by
  obtain ⟨next, hfraction, hnext⟩ := argument.exists_squeeze
  rcases htouch with hsigned | ⟨hpoint, rfl⟩
  · obtain ⟨c, others, hcons, hsign⟩ := Argument.exists_of_isSigned hsigned
    refine ⟨[], next, ⟨by simp, hfraction, fun rest => ?_⟩, fun _ => hsigned⟩
    rw [h, List.nil_append, List.nil_append, ← hnext, hcons, List.cons_append,
      squeeze_sign hsign, squeeze_sign hsign]
  · obtain ⟨others, hcons, hdigit⟩ := Argument.exists_of_beginsWithPoint hpoint
    refine ⟨[' '], next, ⟨by simp; decide, hfraction, fun rest => ?_⟩, fun hnil => (by cases hnil)⟩
    rw [h, List.nil_append, ← hnext, hcons, List.cons_append]
    exact squeeze_point hdigit rest

lemma parts_of_whole (gap : Gap) (argument : Argument) :
    ∃ kept next, Parts .whole gap argument kept next := by
  by_cases h : gap.text = []
  · obtain ⟨next, hfraction, hnext⟩ := argument.exists_squeeze
    refine ⟨[], next, by simp, hfraction, fun rest => ?_⟩
    rw [h, List.nil_append, List.nil_append, hnext]
  · obtain ⟨kept, next, hparts, -⟩ := parts_of_gap .whole argument h
    exact ⟨kept, next, hparts⟩

end Gap

def condense (part : NumberPart) (text : List Char) : List Char := trimEnd (squeeze part text)

/-- What a text is read as: the numbers up to the next letter, then further commands. -/
structure Scans (strict : Bool) (text : List Char) (values : List Binary64) (later : List Command) :
    Prop where
  fields : readFields strict (leading text) = .ok values
  words : readWords strict (following text) = .ok later

def Breaks (text : List Char) : Prop :=
  ∀ c ∈ text.head?, isSign c = true ∨ isBlank c = true ∨ isCommandStart c = true

lemma fields_append_front {blanks : List Char} (h : ∀ b ∈ blanks, isBlank b = true) (text : List Char) :
    fields (blanks ++ text) = fields text := by
  induction blanks with
  | nil => rfl
  | cons b blanks ih =>
    obtain ⟨hb, hrest⟩ := List.forall_mem_cons.mp h
    rw [List.cons_append, fields_cons_blank hb, ih hrest]

lemma isCommandStart_of_isBlank {b : Char} (h : isBlank b) : isCommandStart b = false := by
  rw [isCommandStart, (isAlpha_of_isBlank h).1]
  rfl

section Scan

variable {strict : Bool} {part next : NumberPart} {gap : Gap} {argument : Argument}
  {kept rest : List Char} {values : List Binary64} {later : List Command}

lemma condense_parts (h : Parts part gap argument kept next) (rest : List Char) :
    condense part (gap.text ++ (argument.text ++ rest)) =
      kept ++ (argument.text ++ condense next rest) := by
  have hsolid := argument.solid
  have hends : EndsPlain (kept ++ argument.text) := by
    intro c hc
    rw [List.getLast?_append_of_ne_nil _ hsolid.ne_nil] at hc
    exact hsolid.isBlank c (List.mem_of_getLast? (Option.mem_def.mp hc))
  rw [condense, h.squeeze, ← List.append_assoc, trimEnd_append (by simp [hsolid.ne_nil]) hends,
    List.append_assoc, condense]

lemma Scans.cons (hparts : Parts part gap argument kept next)
    (h : Scans strict (condense next rest) values later) (hbreaks : Breaks (condense next rest)) :
    Scans strict (condense part (gap.text ++ (argument.text ++ rest))) (argument.value :: values)
      later := by
  have hsolid := argument.solid
  have hkept : ∀ c ∈ kept, isCommandStart c = false := fun c hc =>
    isCommandStart_of_isBlank (hparts.blank c hc)
  have hhead : ∀ c ∈ (leading (condense next rest)).head?, isSign c ∨ isBlank c := by
    intro c hc
    cases htext : condense next rest with
    | nil => simp [htext, leading] at hc
    | cons d others =>
      rw [htext] at hc hbreaks
      by_cases hstart : isCommandStart d
      · simp [leading_cons hstart] at hc
      · rw [leading, List.takeWhile_cons_of_pos (by simp [hstart])] at hc
        obtain rfl : d = c := Option.some.inj hc
        exact (hbreaks d rfl).imp_right fun h => h.resolve_right hstart
  rw [condense_parts hparts]
  refine ⟨?_, ?_⟩
  · rw [leading_append hkept, leading_append hsolid.isCommandStart, readFields,
      fields_append_front hparts.blank, hsolid.fields_append hhead]
    exact mapM_cons_ok (argument.readField_text strict) h.fields
  · rw [following_append hkept, following_append hsolid.isCommandStart]
    exact h.words

lemma breaks_argument (hparts : Parts part gap argument kept next)
    (hsigned : kept = [] → argument.isSigned) (rest : List Char) :
    Breaks (condense part (gap.text ++ (argument.text ++ rest))) := by
  intro c hc
  rw [condense_parts hparts] at hc
  cases kept with
  | cons b kept =>
    obtain rfl : b = c := Option.some.inj hc
    exact Or.inr (Or.inl (hparts.blank b List.mem_cons_self))
  | nil =>
    obtain ⟨d, others, hcons, hsign⟩ := Argument.exists_of_isSigned (hsigned rfl)
    rw [List.nil_append, hcons] at hc
    obtain rfl : d = c := Option.some.inj hc
    exact Or.inl hsign

theorem scans_arguments {arguments : List (Gap × Argument)} (before : Argument)
    (hpart : before.endsInFraction → part = .fraction)
    (hfirst : ∀ a ∈ arguments.head?, a.1.text ≠ [] ∨ before.isToldFrom a.2 = true)
    (hchain : arguments.IsChain fun a b => b.1.text ≠ [] ∨ a.2.isToldFrom b.2 = true)
    (hrest : ∀ part, Scans strict (condense part rest) [] later ∧ Breaks (condense part rest)) :
    Scans strict (condense part (Segment.argumentsText arguments ++ rest))
        (arguments.map fun a => a.2.value) later ∧
      Breaks (condense part (Segment.argumentsText arguments ++ rest)) := by
  induction arguments generalizing part before with
  | nil => exact hrest part
  | cons a arguments ih =>
    obtain ⟨gap, argument⟩ := a
    have hparted : ∃ kept next, Parts part gap argument kept next ∧ (kept = [] → argument.isSigned) := by
      by_cases hgap : gap.text = []
      · refine parts_of_touch hgap ?_
        have htold : before.isToldFrom argument = true := (hfirst _ rfl).resolve_left (absurd hgap)
        rw [Argument.isToldFrom, Bool.or_eq_true, Bool.and_eq_true] at htold
        exact htold.imp_right fun h => ⟨h.1, hpart h.2⟩
      · exact parts_of_gap part argument hgap
    obtain ⟨kept, next, hparts, hsigned⟩ := hparted
    rw [List.isChain_cons] at hchain
    obtain ⟨hscans, hbreaks⟩ := ih argument hparts.fraction hchain.1 hchain.2
    rw [Segment.argumentsText, List.flatMap_cons, List.append_assoc, List.append_assoc]
    exact ⟨hscans.cons hparts hbreaks, breaks_argument hparts hsigned _⟩

end Scan

section Segment

variable {strict : Bool} {later : List Command}

lemma length_flags (kind : Kind) : kind.flags.length = kind.arity := by
  cases kind <;> rfl

lemma Group.length_values {kind : Kind} (group : Group kind) : group.values.length = kind.arity := by
  rw [values, List.length_map, ← length_flags, ← group.isFlag, List.length_map]

lemma Segment.commands_token (segment : Segment) (text : List Char) :
    Token.commands ⟨segment.letter, text, segment.arguments.map fun a => a.2.value⟩ =
      .ok segment.commands := by
  obtain ⟨front, letter, groups, hclose, hcomma⟩ := segment
  cases groups with
  | nil =>
    have harity : letter.kind.arity = 0 := by
      rw [hclose.mp rfl]
      rfl
    simp [Token.commands, Segment.arguments, Segment.commands, harity]
  | cons first rest =>
    have harity : letter.kind.arity ≠ 0 := by
      have hopen : letter.kind ≠ .close := fun h => absurd (hclose.mpr h) (by simp)
      generalize letter.kind = kind at hopen
      cases kind <;> first | exact absurd rfl hopen | decide
    have hvalues : (Segment.arguments ⟨front, letter, first :: rest, hclose, hcomma⟩).map
        (fun a => a.2.value) = first.values ++ (rest.map fun group =>
          ({ letter := letter.repeated, operands := group.values } : Command)).flatMap
            Command.operands := by
      simp [Segment.arguments, List.map_flatMap, List.flatMap_map, Group.values]
    rw [hvalues]
    refine TersePath.commands_token text first.length_values harity fun m hm => ?_
    obtain ⟨group, -, rfl⟩ := List.mem_map.mp hm
    exact ⟨rfl, group.length_values, rfl, rfl⟩

lemma condense_letter (part : NumberPart) (letter : Letter) (text : List Char) :
    condense part (letter.char :: text) = letter.char :: condense .whole text := by
  have hends : EndsPlain [letter.char] := endsPlain_of_forall (by simpa using (letter_spec letter).1)
  rw [condense, squeeze_letter]
  exact trimEnd_append (List.cons_ne_nil _ _) hends _

lemma condense_front (part : NumberPart) (front : Spaces) (letter : Letter) (text : List Char) :
    condense part (front.text ++ letter.char :: text) = letter.char :: condense .whole text := by
  by_cases hfront : front.text = []
  · rw [hfront, List.nil_append, condense_letter]
  · obtain ⟨hblank, hcomma, -, -⟩ := letter_spec letter
    rw [condense, squeeze_blanks part hfront (fun b hb => isGap_of_isSpace (front.blank b hb)) hblank
      hcomma, isCommandStart_char, Bool.true_or, if_pos rfl, List.nil_append]
    exact condense_letter .whole letter text

theorem scans_segment (segment : Segment)
    (hchain : segment.arguments.IsChain fun a b => b.1.text ≠ [] ∨ a.2.isToldFrom b.2 = true)
    {rest : List Char}
    (hrest : ∀ part, Scans strict (condense part rest) [] later ∧ Breaks (condense part rest))
    (part : NumberPart) :
    Scans strict (condense part (segment.text ++ rest)) [] (segment.commands ++ later) ∧
      Breaks (condense part (segment.text ++ rest)) := by
  have hscans : Scans strict (condense .whole (Segment.argumentsText segment.arguments ++ rest))
      (segment.arguments.map fun a => a.2.value) later := by
    cases harguments : segment.arguments with
    | nil => exact (hrest .whole).1
    | cons a arguments =>
      rw [harguments, List.isChain_cons] at hchain
      obtain ⟨kept, next, hparts⟩ := parts_of_whole a.1 a.2
      obtain ⟨hscans, hbreaks⟩ := scans_arguments a.2 hparts.fraction hchain.1 hchain.2 hrest
      rw [Segment.argumentsText, List.flatMap_cons, List.append_assoc, List.append_assoc]
      exact hscans.cons hparts hbreaks
  have hstart := isCommandStart_char segment.letter
  rw [Segment.text, List.append_assoc, List.cons_append, condense_front]
  refine ⟨⟨?_, ?_⟩, fun c hc => ?_⟩
  · rw [leading_cons hstart]
    rfl
  · rw [following_cons hstart]
    exact readWords_cons (readToken_letter segment.letter hscans.fields)
      (segment.commands_token _) hscans.words
  · obtain rfl : segment.letter.char = c := Option.some.inj hc
    exact Or.inr (Or.inr hstart)

end Segment

lemma dropBlanksBefore_all {begins : Char → Bool} {blanks : List Char}
    (h : ∀ b ∈ blanks, begins b = false) : dropBlanksBefore begins blanks = blanks := by
  induction blanks with
  | nil => rfl
  | cons b blanks ih =>
    obtain ⟨-, hrest⟩ := List.forall_mem_cons.mp h
    rw [dropBlanksBefore_cons, ih hrest]
    cases blanks with
    | nil => simp
    | cons d blanks => simp [hrest d List.mem_cons_self]

lemma squeeze_spaces (part : NumberPart) (back : Spaces) : squeeze part back.text = back.text := by
  have hgap : ∀ b ∈ back.text, IsGap b := fun b hb => isGap_of_isSpace (back.blank b hb)
  by_cases hne : back.text = []
  · rw [hne]
    rfl
  · have hplain : back.text.map (fun c => if c = ',' then ' ' else c) = back.text := by
      refine (List.map_congr_left fun b hb => ?_).trans (List.map_id back.text)
      exact if_neg (isAlpha_of_isBlank (hgap b hb).isBlank).2.2
    have hparted := partFractions_blanks part hne hgap []
    rw [List.append_nil, partFractions, List.append_nil] at hparted
    rw [squeeze, hplain, hparted, dropBlanksBefore_all fun b hb => (hgap b hb).isCommandStart,
      dropBlanksBefore_all fun b hb =>
        beq_eq_false_iff_ne.mpr (isAlpha_of_isBlank (hgap b hb).isBlank).2.1]

lemma trimEnd_blanks {blanks : List Char} (h : ∀ b ∈ blanks, isBlank b = true) : trimEnd blanks = [] := by
  induction blanks with
  | nil => rfl
  | cons b blanks ih =>
    obtain ⟨hb, hrest⟩ := List.forall_mem_cons.mp h
    rw [trimEnd_cons, ih hrest, hb]
    rfl

namespace PathData

variable {data : PathData}

lemma scans (strict : Bool) (back : Spaces) {segments : List Segment}
    (h : ∀ s ∈ segments, s.arguments.IsChain fun a b => b.1.text ≠ [] ∨ a.2.isToldFrom b.2 = true)
    (part : NumberPart) :
    Scans strict (condense part (segments.flatMap Segment.text ++ back.text)) []
        (segments.flatMap Segment.commands) ∧
      Breaks (condense part (segments.flatMap Segment.text ++ back.text)) := by
  induction segments generalizing part with
  | nil =>
    have hnil : condense part ([].flatMap Segment.text ++ back.text) = [] := by
      rw [List.flatMap_nil, List.nil_append, condense, squeeze_spaces]
      exact trimEnd_blanks fun b hb => (isGap_of_isSpace (back.blank b hb)).isBlank
    rw [hnil]
    exact ⟨⟨rfl, rfl⟩, by simp [Breaks]⟩
  | cons segment segments ih =>
    obtain ⟨hsegment, hrest⟩ := List.forall_mem_cons.mp h
    rw [List.flatMap_cons, List.flatMap_cons, List.append_assoc]
    exact scans_segment segment hsegment (ih hrest) part

/-- A text of the grammar is read as the commands that the grammar says, as long as no flag touches what
follows it and no exponent touches a point. -/
theorem parse_of_separated (strict : Bool) (h : data.Separated Argument.isToldFrom) :
    parse strict data.text = .ok data.commands := by
  obtain ⟨segments, back, hmove⟩ := data
  rw [parse, normalizeSeparators_eq]
  cases segments with
  | nil =>
    have hblank : trim (squeeze .whole (PathData.text ⟨[], back, hmove⟩)) = [] := by
      rw [PathData.text, List.flatMap_nil, List.nil_append, squeeze_spaces, trim,
        List.dropWhile_eq_nil_iff.mpr fun b hb => (isGap_of_isSpace (back.blank b hb)).isBlank]
      rfl
    rw [hblank]
    rfl
  | cons segment segments =>
    have hscans := (scans strict back h .whole).1
    have hstart := isCommandStart_char segment.letter
    obtain ⟨others, hothers⟩ : ∃ others, condense .whole
        ((segment :: segments).flatMap Segment.text ++ back.text) = segment.letter.char :: others := by
      rw [List.flatMap_cons, Segment.text, List.append_assoc, List.append_assoc, List.cons_append,
        condense_front]
      exact ⟨_, rfl⟩
    have htrim : trim (squeeze .whole (PathData.text ⟨segment :: segments, back, hmove⟩)) =
        segment.letter.char :: others := by
      rw [condense] at hothers
      have hhead := head?_trimEnd (hothers ▸ List.cons_ne_nil _ _)
      rw [hothers, List.head?_cons] at hhead
      obtain ⟨text, htext⟩ := List.head?_eq_some_iff.mp hhead.symm
      rw [← hothers, trim, PathData.text, htext,
        List.dropWhile_cons_of_neg (by simp [(letter_spec segment.letter).1])]
    have hwords := hscans.words
    rw [hothers, following_cons hstart] at hwords
    rw [htrim]
    exact commandsOf_words (hmove segment rfl) hwords

end PathData

namespace Example

def spaces (text : List Char) (h : text.all isSpace = true) : Spaces := ⟨text, List.all_eq_true.mp h⟩

def apart (comma : Bool) (text : List Char) (h : text.all isSpace = true) : Gap :=
  ⟨spaces [] rfl, comma, spaces text h⟩

def nothing : Gap := apart false [] rfl

def blank : Gap := apart false [' '] rfl

def comma : Gap := apart true ['\n'] rfl

def literal (sign : Sign) (whole fraction : List Char) (exponent : Option Exponent)
    (h : (whole ++ fraction).all Char.isDigit = true) (hne : whole ++ fraction ≠ []) : Argument :=
  .number ⟨sign, whole, fraction, exponent, List.all_eq_true.mp h, hne⟩

def zero : Argument := literal .none ['0'] [] none rfl (by simp)

def five : Argument := literal .none ['5'] [] none rfl (by simp)

def ten : Argument := literal .none ['1', '0'] [] none rfl (by simp)

def half : Argument := literal .none [] ['5'] none rfl (by simp)

def minusHalf : Argument := literal .minus [] ['5'] none rfl (by simp)

def power : Argument :=
  literal .none ['1'] [] (some ⟨'e', .plus, ['1'], Or.inl rfl, List.all_eq_true.mp rfl, by simp⟩) rfl
    (by simp)

def start : Segment where
  front := spaces [] rfl
  letter := ⟨.move, true⟩
  groups := [⟨[(nothing, zero), (blank, zero)], rfl⟩]
  isClose := by simp
  comma := by simp [nothing, apart]

def touching : PathData where
  segments :=
    [ start,
      { front := spaces ['\t'] rfl
        letter := ⟨.line, false⟩
        groups := [⟨[(blank, half), (nothing, half)], rfl⟩,
          ⟨[(comma, power), (nothing, minusHalf)], rfl⟩]
        isClose := by simp
        comma := by simp [blank, apart] },
      { front := spaces [] rfl
        letter := ⟨.close, false⟩
        groups := []
        isClose := by simp
        comma := by simp } ]
  back := spaces [' '] rfl
  move := by simp [start]

def compactFlags : PathData where
  segments :=
    [ start,
      { front := spaces [] rfl
        letter := ⟨.arc, false⟩
        groups := [⟨[(nothing, five), (blank, five), (blank, zero), (blank, .flag false),
          (nothing, .flag true), (nothing, ten), (blank, zero)], rfl⟩]
        isClose := by simp
        comma := by simp [nothing, apart] } ]
  back := spaces [] rfl
  move := by simp [start]

def exponentPoint : PathData where
  segments :=
    [ start,
      { front := spaces [] rfl
        letter := ⟨.line, true⟩
        groups := [⟨[(nothing, power), (nothing, half)], rfl⟩]
        isClose := by simp
        comma := by simp [nothing, apart] } ]
  back := spaces [] rfl
  move := by simp [start]

end Example

theorem parse_of_separated_touching :
    Example.touching.text = "M0 0\tl .5.5,\n1e+1-.5z ".toList ∧
      Example.touching.Separated Argument.isToldFrom ∧
      parse true Example.touching.text = .ok Example.touching.commands := by
  have hseparated : Example.touching.Separated Argument.isToldFrom := by decide
  exact ⟨by decide, hseparated, PathData.parse_of_separated true hseparated⟩

/-- Texts of the grammar that are refused. -/
theorem not_readPath_compact :
    (Example.compactFlags.text = "M0 0a5 5 0 0110 0".toList ∧
      Example.compactFlags.Separated Argument.mayTouch ∧
      ∀ commands, readPath Example.compactFlags.text ≠ .ok commands) ∧
    (Example.exponentPoint.text = "M0 0L1e+1.5".toList ∧
      Example.exponentPoint.Separated Argument.mayTouch ∧
      ∀ commands, readPath Example.exponentPoint.text ≠ .ok commands) := by
  have hrefused : ∀ text, (readPath text).toOption = none → ∀ commands, readPath text ≠ .ok commands := by
    intro text h commands hread
    rw [hread] at h
    cases h
  refine ⟨⟨by decide, by decide, hrefused _ ?_⟩, by decide, by decide, hrefused _ ?_⟩
  · decide +kernel
  · decide +kernel

end TersePath
