import TersePath.Proofs.Path.Fields
import TersePath.Path.Serialize

namespace TersePath

def squeeze (part : NumberPart) (text : List Char) : List Char :=
  dropBlanksBefore (· == '-') (dropBlanksBefore isCommandStart
    (partFractions part (text.map fun c => if c = ',' then ' ' else c)))

lemma normalizeSeparators_eq (text : List Char) :
    normalizeSeparators text = trim (squeeze .whole text) := rfl

def NumberPart.after (part : NumberPart) (c : Char) : NumberPart :=
  if c = '.' then .point else if isDigit c ∧ part ≠ .whole then .fraction else .whole

lemma partFractions_cons {part : NumberPart} {c : Char} (hpoint : c = '.' → part ≠ .fraction)
    (text : List Char) : partFractions part (c :: text) = c :: partFractions (part.after c) text := by
  rw [partFractions, NumberPart.after]
  split
  · next h =>
    rw [if_neg (fun hboth => hpoint h hboth.1), h]
  · split
    · rfl
    · rfl

lemma dropBlanksBefore_of_not_blank (begins : Char → Bool) {c : Char} (hc : isBlank c = false)
    (text : List Char) : dropBlanksBefore begins (c :: text) = c :: dropBlanksBefore begins text := by
  rw [dropBlanksBefore_cons, hc]
  simp

lemma squeeze_cons {part : NumberPart} {c : Char} (hc : isBlank c = false) (hcomma : c ≠ ',')
    (hpoint : c = '.' → part ≠ .fraction) (text : List Char) :
    squeeze part (c :: text) = c :: squeeze (part.after c) text := by
  rw [squeeze, List.map_cons, if_neg hcomma, partFractions_cons hpoint,
    dropBlanksBefore_of_not_blank _ hc, dropBlanksBefore_of_not_blank _ hc, squeeze]

lemma isAlpha_of_isBlank {b : Char} (h : isBlank b) : b.isAlpha = false ∧ b ≠ '-' ∧ b ≠ ',' := by
  have hne : ∀ c : Char, isBlank c = false → b ≠ c := by
    rintro c hc rfl
    exact absurd h (by simp [hc])
  refine ⟨?_, hne '-' (by decide), hne ',' (by decide)⟩
  rw [Bool.eq_false_iff]
  intro halpha
  simp only [Char.isAlpha, Char.isUpper, Char.isLower, Bool.or_eq_true, Bool.and_eq_true,
    decide_eq_true_eq, ge_iff_le, UInt32.le_iff_toNat_le] at halpha
  have hcode : b.val.toNat = b.toNat := rfl
  rw [isBlank] at h
  split at h
  · simp at h halpha
    omega
  · simp at h halpha
    omega

structure IsGap (b : Char) : Prop where
  isBlank : isBlank b = true
  isDigit : isDigit b = false
  ne_point : b ≠ '.'

lemma IsGap.isCommandStart {b : Char} (h : IsGap b) : isCommandStart b = false := by
  rw [TersePath.isCommandStart, (isAlpha_of_isBlank h.isBlank).1]
  rfl

lemma dropBlanksBefore_blanks (begins : Char → Bool) {blanks : List Char}
    (h : ∀ b ∈ blanks, isBlank b = true ∧ begins b = false) {c : Char} (hc : isBlank c = false)
    (text : List Char) : dropBlanksBefore begins (blanks ++ c :: text) =
      (if begins c then [] else blanks) ++ c :: dropBlanksBefore begins text := by
  induction blanks with
  | nil => simp [dropBlanksBefore_of_not_blank begins hc]
  | cons b blanks ih =>
    obtain ⟨⟨hb, hbegins⟩, hrest⟩ := List.forall_mem_cons.mp h
    rw [List.cons_append, dropBlanksBefore_cons, ih hrest, hb]
    by_cases hstart : begins c
    · simp [hstart]
    · cases blanks with
      | nil => simp [hstart]
      | cons d blanks => simp [hstart, (hrest d List.mem_cons_self).2]

lemma partFractions_blanks (part : NumberPart) {blanks : List Char} (hne : blanks ≠ [])
    (h : ∀ b ∈ blanks, IsGap b) (text : List Char) :
    partFractions part (blanks ++ text) = blanks ++ partFractions .whole text := by
  induction blanks generalizing part with
  | nil => exact absurd rfl hne
  | cons b blanks ih =>
    obtain ⟨hb, hrest⟩ := List.forall_mem_cons.mp h
    have hafter : part.after b = .whole := by simp [NumberPart.after, hb.ne_point, hb.isDigit]
    rw [List.cons_append, partFractions_cons (fun hpoint => absurd hpoint hb.ne_point), hafter]
    cases blanks with
    | nil => rfl
    | cons d blanks => exact congrArg (b :: ·) (ih _ (by simp) hrest)

lemma squeeze_blanks (part : NumberPart) {blanks : List Char} (hne : blanks ≠ [])
    (h : ∀ b ∈ blanks, IsGap b) {c : Char} (hc : isBlank c = false) (hcomma : c ≠ ',')
    (text : List Char) : squeeze part (blanks ++ c :: text) =
      (if isCommandStart c || c == '-' then [] else blanks) ++ squeeze .whole (c :: text) := by
  have hplain : blanks.map (fun c => if c = ',' then ' ' else c) = blanks := by
    refine (List.map_congr_left fun b hb => ?_).trans (List.map_id blanks)
    exact if_neg (isAlpha_of_isBlank (h b hb).isBlank).2.2
  have hletters : ∀ b ∈ blanks, isBlank b = true ∧ isCommandStart b = false := fun b hb =>
    ⟨(h b hb).isBlank, (h b hb).isCommandStart⟩
  have hminus : ∀ b ∈ blanks, isBlank b = true ∧ (b == '-') = false := fun b hb =>
    ⟨(h b hb).isBlank, beq_eq_false_iff_ne.mpr (isAlpha_of_isBlank (h b hb).isBlank).2.1⟩
  rw [squeeze, squeeze, List.map_append, hplain, List.map_cons, if_neg hcomma,
    partFractions_blanks _ hne h, partFractions_cons (by simp), dropBlanksBefore_blanks _ hletters hc,
    dropBlanksBefore_of_not_blank _ hc, dropBlanksBefore_of_not_blank _ hc]
  by_cases hstart : isCommandStart c
  · rw [if_pos hstart, List.nil_append, dropBlanksBefore_of_not_blank _ hc]
    simp [hstart]
  · rw [if_neg hstart, dropBlanksBefore_blanks _ hminus hc]
    simp [hstart]

lemma squeeze_blank (part : NumberPart) {b c : Char} (hb : IsGap b) (hc : isBlank c = false)
    (hcomma : c ≠ ',') (text : List Char) : squeeze part (b :: c :: text) =
      (if isCommandStart c || c == '-' then [] else [b]) ++ squeeze .whole (c :: text) :=
  squeeze_blanks part (List.cons_ne_nil b []) (by simpa using hb) hc hcomma text

/-- Squeezing makes one text of the other wherever it stands. -/
def Squeezes (before after : List Char) : Prop :=
  ∀ part, ∃ next, ∀ rest, squeeze part (before ++ rest) = after ++ squeeze next rest

namespace Squeezes

lemma nil : Squeezes [] [] := fun part => ⟨part, fun _ => rfl⟩

lemma append {before before' after after' : List Char} (h : Squeezes before after)
    (h' : Squeezes before' after') : Squeezes (before ++ before') (after ++ after') := by
  intro part
  obtain ⟨middle, hmiddle⟩ := h part
  obtain ⟨next, hnext⟩ := h' middle
  refine ⟨next, fun rest => ?_⟩
  rw [List.append_assoc, hmiddle, hnext, List.append_assoc]

lemma eq {before after : List Char} (h : Squeezes before after) (part : NumberPart) :
    squeeze part before = after := by
  obtain ⟨next, hnext⟩ := h part
  have := hnext []
  rw [List.append_nil] at this
  rw [this]
  simp [squeeze, partFractions, dropBlanksBefore]

end Squeezes

lemma letter_spec (letter : Letter) : isBlank letter.char = false ∧ letter.char ≠ ',' ∧
    letter.char ≠ '.' ∧ isDigit letter.char = false := by
  obtain ⟨kind, absolute⟩ := letter
  cases kind <;> cases absolute <;> exact ⟨rfl, by decide, by decide, rfl⟩

lemma squeeze_letter (part : NumberPart) (letter : Letter) (rest : List Char) :
    squeeze part (letter.char :: rest) = letter.char :: squeeze .whole rest := by
  obtain ⟨hblank, hcomma, hpoint, hdigit⟩ := letter_spec letter
  have hafter : part.after letter.char = .whole := by simp [NumberPart.after, hpoint, hdigit]
  rw [squeeze_cons hblank hcomma (fun h => absurd h hpoint), hafter]

lemma squeeze_minus (part : NumberPart) (rest : List Char) :
    squeeze part ('-' :: rest) = '-' :: squeeze .whole rest := by
  have hafter : part.after '-' = .whole := by
    have hdigit : isDigit '-' = false := by decide
    simp [NumberPart.after, hdigit]
  rw [squeeze_cons rfl (by decide) (fun h => absurd h (by decide)), hafter]

lemma squeeze_plain {part : NumberPart} {c : Char} (hc : isPlain c)
    (hpoint : c = '.' → part ≠ .fraction) (rest : List Char) :
    squeeze part (c :: rest) = c :: squeeze (part.after c) rest :=
  squeeze_cons (isPlain_spec hc).1 (isPlain_spec hc).2.2.2.2 hpoint rest

lemma ne_point {c : Char} (h : c.isDigit) : c ≠ '.' := by
  rintro rfl
  exact absurd h (by decide)

lemma isPlain_of_isDigit {c : Char} (h : c.isDigit) : isPlain c := by simp [isPlain, h]

lemma squeeze_whole {digits : List Char} (h : ∀ c ∈ digits, c.isDigit) (rest : List Char) :
    squeeze .whole (digits ++ rest) = digits ++ squeeze .whole rest := by
  induction digits with
  | nil => rfl
  | cons c digits ih =>
    have hc : c.isDigit := h c (by simp)
    have hafter : NumberPart.whole.after c = .whole := by simp [NumberPart.after, ne_point hc]
    rw [List.cons_append, squeeze_plain (isPlain_of_isDigit hc) (by simp), hafter,
      ih fun x hx => h x (by simp [hx]), List.cons_append]

lemma squeeze_fraction {digits : List Char} (h : ∀ c ∈ digits, c.isDigit) (part : NumberPart)
    (hpart : part ≠ .whole) (rest : List Char) : squeeze part (digits ++ rest) =
      digits ++ squeeze (if digits = [] then part else .fraction) rest := by
  induction digits generalizing part with
  | nil => rfl
  | cons c digits ih =>
    have hc : c.isDigit := h c (by simp)
    have hafter : part.after c = .fraction := by
      simp [NumberPart.after, ne_point hc, isDigit_of_isDigit hc, hpart]
    have htail := ih (fun x hx => h x (by simp [hx])) .fraction (by simp)
    rw [ite_self] at htail
    rw [List.cons_append, squeeze_plain (isPlain_of_isDigit hc) (fun h => absurd h (ne_point hc)),
      hafter, htail, List.cons_append, if_neg (List.cons_ne_nil c digits)]

lemma squeeze_body {text whole fraction : List Char} (h : Body text whole fraction) :
    ∃ next, (fraction ≠ [] → next = .fraction) ∧
      ∀ rest, squeeze .whole (text ++ rest) = text ++ squeeze next rest := by
  obtain ⟨⟨rfl, rfl⟩ | rfl, hwhole, hfraction, -⟩ := h
  · exact ⟨.whole, fun hne => absurd rfl hne, squeeze_whole hwhole⟩
  · refine ⟨if fraction = [] then .point else .fraction, fun hne => if_neg hne, fun rest => ?_⟩
    rw [List.append_assoc, squeeze_whole hwhole, List.cons_append, squeeze_plain rfl (by simp),
      List.append_assoc, List.cons_append]
    exact congrArg (fun rest => whole ++ '.' :: rest) (squeeze_fraction hfraction .point (by simp) rest)

lemma squeeze_spelling {x : Binary64} (hx : x.isFinite) :
    ∃ next, ∀ rest, squeeze .whole (x.spelling ++ rest) = x.spelling ++ squeeze next rest := by
  obtain ⟨s, body, whole, fraction, htext, hbody, -⟩ := Binary64.exists_spelling hx
  obtain ⟨next, -, hnext⟩ := squeeze_body hbody
  refine ⟨next, fun rest => ?_⟩
  rw [htext, List.append_assoc]
  cases s with
  | true => exact (squeeze_minus _ _).trans (congrArg _ (hnext rest))
  | false => exact hnext rest

lemma squeezes_nextOperand (spaced : Bool) {x : Binary64} (hx : x.isFinite) :
    Squeezes (nextOperand spaced x.spelling) (nextOperand false x.spelling) := by
  obtain ⟨next, hnext⟩ := squeeze_spelling hx
  have hspelled := spelled_spelling hx
  generalize x.spelling = text at *
  obtain ⟨c, others, rfl⟩ := List.exists_cons_of_ne_nil hspelled.ne_nil
  have hblank := hspelled.isBlank c (by simp)
  have hstart := hspelled.isCommandStart c (by simp)
  have hspace : IsGap ' ' := ⟨by decide, by decide, by decide⟩
  intro part
  refine ⟨next, fun rest => ?_⟩
  by_cases hminus : c = '-'
  · subst hminus
    have hshort : squeeze part ('-' :: others ++ rest) = '-' :: others ++ squeeze next rest := by
      rw [← hnext rest, List.cons_append, squeeze_minus, squeeze_minus]
    cases spaced with
    | false => simpa [nextOperand] using hshort
    | true =>
      have hlong := squeeze_blank part hspace hblank (by decide) (others ++ rest)
      simp only [hstart, beq_self_eq_true, Bool.or_true, if_true, List.nil_append] at hlong
      simpa [nextOperand, hlong] using hnext rest
  · have hcomma : c ≠ ',' := by
      rcases hspelled.mem c (by simp) with hc | hc
      · exact absurd hc hminus
      · exact (isPlain_spec hc).2.2.2.2
    have htext : ∀ spaced, nextOperand spaced (c :: others) = ' ' :: c :: others := by
      intro spaced
      simp [nextOperand, hminus]
    have hlong := squeeze_blank part hspace hblank hcomma (others ++ rest)
    have hkeep : (isCommandStart c || c == '-') = false := by simp [hstart, hminus]
    rw [htext, htext, List.cons_append, List.cons_append, hlong, hkeep, List.cons_append,
      List.cons_append, ← List.cons_append, ← List.cons_append, hnext]
    rfl

lemma squeezes_nextOperands (spaced : Bool) {operands : List Binary64}
    (h : ∀ x ∈ operands, x.isFinite = true) :
    Squeezes (operands.flatMap fun x => nextOperand spaced x.spelling)
      (operands.flatMap fun x => nextOperand false x.spelling) := by
  induction operands with
  | nil => exact .nil
  | cons x operands ih =>
    rw [List.flatMap_cons, List.flatMap_cons]
    exact (squeezes_nextOperand spaced (h x (by simp))).append (ih fun y hy => h y (by simp [hy]))

lemma squeeze_operandsText (spaced : Bool) {operands : List Binary64}
    (h : ∀ x ∈ operands, x.isFinite = true) :
    ∃ next, ∀ rest, squeeze .whole (operandsText spaced operands ++ rest) =
      operandsText false operands ++ squeeze next rest := by
  cases operands with
  | nil => exact ⟨.whole, fun _ => rfl⟩
  | cons x operands =>
    obtain ⟨middle, hmiddle⟩ := squeeze_spelling (h x (by simp))
    have hothers : ∀ y ∈ operands, y.isFinite = true := fun y hy => h y (by simp [hy])
    obtain ⟨next, hnext⟩ := squeezes_nextOperands spaced hothers middle
    refine ⟨next, fun rest => ?_⟩
    rw [operandsText, operandsText, List.append_assoc, hmiddle, hnext, List.append_assoc]

lemma squeezes_text (spaced : Bool) {command : Command}
    (h : ∀ x ∈ command.operands, x.isFinite = true) :
    Squeezes (command.text spaced) (command.text false) := by
  obtain ⟨next, hnext⟩ := squeeze_operandsText spaced h
  refine fun part => ⟨next, fun rest => ?_⟩
  rw [Command.text, Command.text, List.cons_append, squeeze_letter, hnext, List.cons_append]

lemma Squeezes.break {before after : List Char} {letter : Letter}
    (h : Squeezes (letter.char :: before) after) : Squeezes ('\n' :: letter.char :: before) after := by
  intro part
  obtain ⟨next, hnext⟩ := h .whole
  refine ⟨next, fun rest => ?_⟩
  obtain ⟨hblank, hcomma, -, -⟩ := letter_spec letter
  have hbreak : IsGap '\n' := ⟨by decide, by decide, by decide⟩
  rw [List.cons_append, List.cons_append, squeeze_blank part hbreak hblank hcomma, isCommandStart_char,
    ← List.cons_append, hnext]
  rfl

lemma squeezes_tail {command : Command} (h : ∀ x ∈ command.operands, x.isFinite = true)
    (hminus : (operandsText false command.operands).head? = some '-') :
    Squeezes (operandsText false command.operands) (operandsText false command.operands) := by
  obtain ⟨next, hnext⟩ := squeeze_operandsText false h
  refine fun part => ⟨next, fun rest => ?_⟩
  rw [← hnext rest]
  obtain ⟨others, hothers⟩ : ∃ others, operandsText false command.operands = '-' :: others := by
    cases htext : operandsText false command.operands with
    | nil => simp [htext] at hminus
    | cons c others =>
      rw [htext, List.head?_cons, Option.some.injEq] at hminus
      exact ⟨others, by rw [hminus]⟩
  rw [hothers, List.cons_append, squeeze_minus, squeeze_minus]

def Config.compact (config : Config) : Config :=
  { config with devmode := false, removeRepeatedLetters := config.removeRepeatedLetters && !config.devmode }

def Command.Plain (command : Command) : Prop :=
  command.absoluteText = none ∧ ∀ x ∈ command.operands, x.isFinite = true

lemma chosenText_plain (config : Config) {command : Command} (h : command.Plain) :
    chosenText config command = command.text config.devmode := by
  rw [chosenText, h.1]

lemma omitsLetter_text {letter : Option Char} {closed : Bool} {command : Command}
    (h : omitsLetter letter closed (command.text false)) :
    (operandsText false command.operands).head? = some '-' ∧ letter = some command.letter.char ∧
      closed = false ∧ (command.letter.char = 'c' ∨ command.letter.char = 'l') := by
  rw [Command.text] at h
  generalize operandsText false command.operands = text at *
  cases text with
  | nil => simp [omitsLetter] at h
  | cons d others =>
    by_cases hd : d = '-'
    · subst hd
      simp only [omitsLetter, Bool.and_eq_true, Bool.or_eq_true, beq_iff_eq, Bool.not_eq_true'] at h
      exact ⟨rfl, h.1.2, h.2, h.1.1⟩
    · simp [omitsLetter, hd] at h

lemma serializeFrom_cons {config : Config} (hdev : config.devmode = false) (letter : Option Char)
    (closed : Bool) {command : Command} (h : command.Plain) (rest : List Command) :
    serializeFrom config letter closed (command :: rest) =
      (if config.removeRepeatedLetters && omitsLetter letter closed (command.text false) then
        operandsText false command.operands else command.text false) ++
      (if command.closesSubpath then ['z'] else []) ++
      serializeFrom config (some command.letter.char) command.closesSubpath rest := by
  rw [serializeFrom, chosenText_plain config h, hdev]
  rfl

lemma squeezes_z : Squeezes ['z'] ['z'] :=
  fun part => ⟨.whole, fun rest => squeeze_letter part ⟨.close, false⟩ rest⟩

lemma squeezes_serializeFrom (config : Config) (letter : Option Char) (closed : Bool)
    {commands : List Command} (h : ∀ command ∈ commands, command.Plain) :
    Squeezes (serializeFrom config letter closed commands)
      (serializeFrom config.compact letter closed commands) := by
  induction commands generalizing letter closed with
  | nil => exact .nil
  | cons command rest ih =>
    have hplain := h command (by simp)
    have hrest := fun letter closed => ih letter closed fun c hc => h c (by simp [hc])
    have hshort := chosenText_plain config.compact hplain
    rw [serializeFrom, serializeFrom, chosenText_plain config hplain, hshort]
    have hcompact : config.compact.devmode = false := rfl
    have hletters : config.compact.removeRepeatedLetters =
      (config.removeRepeatedLetters && !config.devmode) := rfl
    simp only [hcompact, hletters, Bool.false_eq_true, if_false]
    cases hdev : config.devmode with
    | true =>
      simp only [if_true, Bool.not_true, Bool.and_false, Bool.false_and, Bool.false_eq_true, if_false]
      refine .append (.append (squeezes_text true hplain.2).break ?_) (hrest _ _)
      split
      · have hclose : Squeezes [(⟨.close, false⟩ : Letter).char] ['z'] := squeezes_z
        exact hclose.break
      · exact .nil
    | false =>
      simp only [Bool.false_eq_true, if_false, Bool.not_false, Bool.and_true]
      refine .append (.append ?_ ?_) (hrest _ _)
      · split
        · next homit =>
          rw [Bool.and_eq_true] at homit
          exact squeezes_tail hplain.2 (omitsLetter_text homit.2).1
        · exact squeezes_text false hplain.2
      · split
        · exact squeezes_z
        · exact .nil

def EndsPlain (text : List Char) : Prop := ∀ c ∈ text.getLast?, isBlank c = false

lemma EndsPlain.append {text rest : List Char} (h : EndsPlain text) (h' : EndsPlain rest) :
    EndsPlain (text ++ rest) := by
  intro c hc
  rw [List.getLast?_append, Option.mem_def, Option.or_eq_some_iff] at hc
  rcases hc with hc | ⟨-, hc⟩
  · exact h' c hc
  · exact h c hc

lemma endsPlain_of_forall {text : List Char} (h : ∀ c ∈ text, isBlank c = false) : EndsPlain text :=
  fun c hc => h c (List.mem_of_getLast? (Option.mem_def.mp hc))

lemma endsPlain_nextOperands {operands : List Binary64} (h : ∀ x ∈ operands, x.isFinite = true) :
    EndsPlain (operands.flatMap fun x => nextOperand false x.spelling) := by
  induction operands with
  | nil => exact endsPlain_of_forall (by simp)
  | cons x operands ih =>
    rw [List.flatMap_cons]
    refine .append ?_ (ih fun y hy => h y (by simp [hy]))
    have hspelled := spelled_spelling (h x (by simp))
    have hends := endsPlain_of_forall hspelled.isBlank
    rw [nextOperand]
    split
    · exact hends
    · intro c hc
      rw [List.getLast?_cons_of_ne_nil hspelled.ne_nil] at hc
      exact hends c hc

lemma endsPlain_operandsText {operands : List Binary64} (h : ∀ x ∈ operands, x.isFinite = true) :
    EndsPlain (operandsText false operands) := by
  cases operands with
  | nil => exact endsPlain_of_forall (by simp [operandsText])
  | cons x operands =>
    exact .append (endsPlain_of_forall (spelled_spelling (h x (by simp))).isBlank)
      (endsPlain_nextOperands fun y hy => h y (by simp [hy]))

lemma endsPlain_text {command : Command} (h : ∀ x ∈ command.operands, x.isFinite = true) :
    EndsPlain (command.text false) := by
  have hletter : EndsPlain [command.letter.char] :=
    endsPlain_of_forall (by simpa using (letter_spec command.letter).1)
  exact hletter.append (endsPlain_operandsText h)

lemma endsPlain_serializeFrom {config : Config} (hdev : config.devmode = false) (letter : Option Char)
    (closed : Bool) {commands : List Command} (h : ∀ command ∈ commands, command.Plain) :
    EndsPlain (serializeFrom config letter closed commands) := by
  induction commands generalizing letter closed with
  | nil => exact endsPlain_of_forall (by simp [serializeFrom])
  | cons command rest ih =>
    have hplain := h command (by simp)
    rw [serializeFrom_cons hdev letter closed hplain]
    refine .append (.append ?_ ?_) (ih _ _ fun c hc => h c (by simp [hc]))
    · split
      · exact endsPlain_operandsText hplain.2
      · exact endsPlain_text hplain.2
    · split
      · intro c hc
        obtain rfl : 'z' = c := by simpa using hc
        rfl
      · exact endsPlain_of_forall (by simp)

lemma trimEnd_append {text : List Char} (hne : text ≠ []) (h : EndsPlain text) (rest : List Char) :
    trimEnd (text ++ rest) = text ++ trimEnd rest := by
  induction text with
  | nil => exact absurd rfl hne
  | cons c text ih =>
    rw [List.cons_append, trimEnd_cons]
    cases text with
    | nil =>
      have hc : isBlank c = false := h c (by simp)
      simp [hc]
    | cons d text =>
      rw [ih (by simp) fun x hx => h x (by simpa using hx)]
      simp

lemma trimEnd_eq {text : List Char} (h : EndsPlain text) : trimEnd text = text := by
  cases text with
  | nil => rfl
  | cons c text =>
    have happend := trimEnd_append (List.cons_ne_nil c text) h []
    have hnil : trimEnd [] = [] := rfl
    rwa [hnil, List.append_nil] at happend

lemma trim_eq {letter : Letter} {text : List Char} (h : EndsPlain (letter.char :: text)) :
    trim (letter.char :: text) = letter.char :: text := by
  rw [trim, List.dropWhile_cons_of_neg (by simp [(letter_spec letter).1]), trimEnd_eq h]

lemma exists_serializeFrom_cons (config : Config) {command : Command} (h : command.Plain)
    (rest : List Command) : ∃ others, serializeFrom config.compact none false (command :: rest) =
      command.letter.char :: others := by
  have homit : omitsLetter none false (command.text false) = false := by
    by_contra hne
    have hletter := (omitsLetter_text (Bool.not_eq_false _ ▸ hne)).2.1
    exact absurd hletter (by simp)
  rw [serializeFrom_cons rfl none false h, homit, Bool.and_false, if_neg Bool.false_ne_true,
    List.append_assoc]
  exact ⟨_, rfl⟩

/-- Reading a written path sees the compact spelling of it. -/
theorem normalizeSeparators_serializeFrom (config : Config) {commands : List Command}
    (h : ∀ command ∈ commands, command.Plain) :
    normalizeSeparators (serializeFrom config none false commands) =
      serializeFrom config.compact none false commands := by
  rw [normalizeSeparators_eq, (squeezes_serializeFrom config none false h).eq]
  have hdev : config.compact.devmode = false := rfl
  have hends := endsPlain_serializeFrom hdev none false h
  cases commands with
  | nil => rfl
  | cons command rest =>
    obtain ⟨others, hothers⟩ := exists_serializeFrom_cons config (h command (by simp)) rest
    rw [hothers] at hends ⊢
    exact trim_eq hends

end TersePath
