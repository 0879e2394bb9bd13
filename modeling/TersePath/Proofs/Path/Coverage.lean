import TersePath.Proofs.Path.Pieces

/-! All characters of a text but the blanks are found in its fields and tokens, whether the fields are
numbers or not. A field goes on up to a blank or to a sign that belongs to no exponent, and with that the
fields of a text are determined. -/

namespace TersePath

/-- A sign begins a field or stands right behind an exponent marker. -/
structure IsField (field : List Char) : Prop where
  ne_nil : field ≠ []
  isBlank : ∀ c ∈ field, isBlank c = false
  signs : field.IsChain fun before c => isSign c = true → isExponentMark before = true

/-- A text cut into fields that leave out nothing but blanks, each of them as long as it may be. -/
inductive Divided : List Char → List (List Char) → Prop
  | nil : Divided [] []
  | blank {b : Char} {text : List Char} {pieces : List (List Char)} (hb : isBlank b = true)
      (h : Divided text pieces) : Divided (b :: text) pieces
  | field {field text : List Char} {pieces : List (List Char)} (hfield : IsField field)
      (hend : ∀ x ∈ field.getLast?, ∀ y ∈ text.head?,
        isBlank y = true ∨ isSign y = true ∧ isExponentMark x = false)
      (h : Divided text pieces) : Divided (field ++ text) (field :: pieces)

section Field

variable {field : List Char}

lemma continuesField_iff {before c : Char} (hbefore : isBlank before = false) (hc : isBlank c = false) :
    continuesField before c = true ↔ (isSign c = true → isExponentMark before = true) := by
  rw [continuesField, hbefore, hc]
  cases isSign c <;> simp

lemma IsField.isChain (h : IsField field) : field.IsChain fun x y => continuesField x y = true :=
  h.signs.imp_of_mem_imp fun _ _ hx hy hsign =>
    (continuesField_iff (h.isBlank _ hx) (h.isBlank _ hy)).mpr hsign

lemma isField_of_isChain (hne : field ≠ []) (hchain : field.IsChain fun x y => continuesField x y = true)
    (hsome : ¬field.all TersePath.isBlank) : IsField field where
  ne_nil := hne
  isBlank := isBlank_of_isChain hchain hsome
  signs := hchain.imp_of_mem_imp fun _ _ hx hy hcontinues =>
    (continuesField_iff (isBlank_of_isChain hchain hsome _ hx)
      (isBlank_of_isChain hchain hsome _ hy)).mp hcontinues

end Field

namespace Divided

variable {text : List Char} {pieces : List (List Char)}

lemma blanks {gap : List Char} (hgap : ∀ c ∈ gap, isBlank c = true) (h : Divided text pieces) :
    Divided (gap ++ text) pieces := by
  induction gap with
  | nil => exact h
  | cons c gap ih =>
    obtain ⟨hc, hrest⟩ := List.forall_mem_cons.mp hgap
    exact .blank hc (ih hrest)

lemma fields_eq (h : Divided text pieces) : fields text = pieces := by
  induction h with
  | nil => rfl
  | blank hb _ ih => rw [fields_cons_blank hb, ih]
  | field hfield hend _ ih =>
    rw [fields_append_of_break hfield.ne_nil hfield.isChain hfield.isBlank ?_, ih]
    intro x hx y hy
    rcases hend x hx y hy with hblank | ⟨hsign, hmark⟩
    · simp [continuesField, hblank]
    · simp [continuesField, hsign, hmark]

lemma isField (h : Divided text pieces) : ∀ field ∈ pieces, IsField field := by
  induction h with
  | nil => simp
  | blank _ _ ih => exact ih
  | field hfield _ _ ih => exact List.forall_mem_cons.mpr ⟨hfield, ih⟩

lemma flatten_eq (h : Divided text pieces) : pieces.flatten = text.filter fun c => !isBlank c := by
  induction h with
  | nil => rfl
  | blank hb _ ih => rw [List.filter_cons_of_neg (by simp [hb]), ih]
  | @field field _ _ hfield _ _ ih =>
    have hkept : (field.filter fun c => !isBlank c) = field :=
      List.filter_eq_self.mpr fun c hc => by simp [hfield.isBlank c hc]
    rw [List.flatten_cons, List.filter_append, ih, hkept]

end Divided

lemma divided_flatten {groups : List (List Char)} (hne : ∀ group ∈ groups, group ≠ [])
    (hchain : ∀ group ∈ groups, group.IsChain fun x y => continuesField x y = true)
    (hbreaks : groups.IsChain fun a b => ∀ x ∈ a.getLast?, ∀ y ∈ b.head?, continuesField x y = false) :
    Divided groups.flatten (groups.filter fun group => !group.all isBlank) := by
  induction groups with
  | nil => exact .nil
  | cons group groups ih =>
    obtain ⟨hgroup, hgroups⟩ := List.forall_mem_cons.mp hne
    obtain ⟨hlinked, hothers⟩ := List.forall_mem_cons.mp hchain
    have hrest := ih hgroups hothers hbreaks.tail
    by_cases hblank : group.all isBlank = true
    · rw [List.filter_cons_of_neg (by simp [hblank]), List.flatten_cons]
      exact hrest.blanks (List.all_eq_true.mp hblank)
    · rw [List.filter_cons_of_pos (by simpa using hblank), List.flatten_cons]
      have hfield := isField_of_isChain hgroup hlinked hblank
      refine .field hfield (fun x hx y hy => ?_) hrest
      obtain ⟨next, hnext, hhead⟩ : ∃ next ∈ groups.head?, y ∈ next.head? := by
        cases groups with
        | nil => cases hy
        | cons next groups =>
          rw [List.flatten_cons, List.head?_append_of_ne_nil _ (hgroups next (by simp))] at hy
          exact ⟨next, rfl, hy⟩
      have hstop := hbreaks.rel_head? hnext x hx y hhead
      rw [continuesField, hfield.isBlank x (List.mem_of_getLast? (Option.mem_def.mp hx))] at hstop
      simpa [← Bool.not_eq_true, or_iff_not_imp_left] using hstop

lemma divided_fields (text : List Char) : Divided text (fields text) := by
  have hbreaks : (text.splitBy continuesField).IsChain fun a b =>
      ∀ x ∈ a.getLast?, ∀ y ∈ b.head?, continuesField x y = false := by
    refine (List.isChain_getLast_head_splitBy continuesField text).imp ?_
    rintro a b ⟨ha, hb, hstop⟩ x hx y hy
    rwa [List.getLast_of_mem_getLast? hx, List.head_of_mem_head? hy] at hstop
  have hwhole := divided_flatten (fun _ => List.ne_nil_of_mem_splitBy)
    (fun _ => List.isChain_of_mem_splitBy) hbreaks
  rwa [List.flatten_splitBy] at hwhole

theorem divided_iff {text : List Char} {pieces : List (List Char)} :
    Divided text pieces ↔ fields text = pieces := by
  refine ⟨Divided.fields_eq, ?_⟩
  rintro rfl
  exact divided_fields text

section Tokens

variable {strict : Bool}

lemma flatten_pieces_word {word : List Char} {token : Token} (h : readToken strict word = .ok token) :
    token.pieces.flatten = (word.filter fun c => !isBlank c) ∧
      token.operands = (fields token.text).map readNumber := by
  cases word with
  | nil => cases h
  | cons c rest =>
    obtain ⟨rfl, htext, hvalues⟩ := readToken_cases h
    refine ⟨?_, eq_map_of_readFields hvalues⟩
    have hletter := (letter_spec token.letter).1
    rw [Token.pieces, htext, fields_trim, List.flatten_cons, (divided_fields rest).flatten_eq,
      List.filter_cons_of_pos (by simp [hletter]), List.singleton_append]

lemma flatten_pieces_words {texts : List (List Char)} {tokens : List Token}
    (h : List.Forall₂ (fun word token => readToken strict word = .ok token) texts tokens) :
    (tokens.flatMap Token.pieces).flatten = (texts.flatten.filter fun c => !isBlank c) ∧
      ∀ token ∈ tokens, token.operands = (fields token.text).map readNumber := by
  induction h with
  | nil => exact ⟨rfl, by simp⟩
  | cons hword _ ih =>
    obtain ⟨hpieces, hoperands⟩ := flatten_pieces_word hword
    refine ⟨?_, List.forall_mem_cons.mpr ⟨hoperands, ih.2⟩⟩
    rw [List.flatMap_cons, List.flatten_append, hpieces, ih.1, List.flatten_cons, List.filter_append]

lemma flatten_pieces_tokens {text : List Char} {tokens : List Token}
    (h : tokenize strict text = .ok tokens) :
    (tokens.flatMap Token.pieces).flatten = (text.filter fun c => !isBlank c) ∧
      ∀ token ∈ tokens, token.operands = (fields token.text).map readNumber := by
  rw [tokenize.eq_def] at h
  split at h
  · obtain rfl : [] = tokens := Except.ok.inj h
    exact ⟨rfl, by simp⟩
  · next text c rest =>
    split at h
    · have hwords := flatten_pieces_words (mapM_eq_ok_iff.mp h)
      rwa [words, List.flatten_splitBy] at hwords
    · cases h

end Tokens

/-- A text is its fields in a row, with nothing but blanks left out, and it has no other fields. Where it
is read, the letters and fields of its tokens make up the text, and each field is an operand. -/
theorem flatten_fields_and_pieces :
    (∀ text, (∀ field ∈ fields text, IsField field) ∧
      (fields text).flatten = (text.filter fun c => !isBlank c) ∧
      ∀ pieces, Divided text pieces ↔ fields text = pieces) ∧
    ∀ strict text tokens, tokenize strict text = .ok tokens →
      (tokens.flatMap Token.pieces).flatten = (text.filter fun c => !isBlank c) ∧
        ∀ token ∈ tokens, token.operands = (fields token.text).map readNumber := by
  refine ⟨fun text => ?_, fun strict text tokens h => flatten_pieces_tokens h⟩
  have hfields := divided_fields text
  exact ⟨hfields.isField, hfields.flatten_eq, fun pieces => divided_iff⟩

namespace Example

/-- Signs in a row, a stray exponent sign, points in a row and a comma: most of the fields are no numbers. -/
def malformed : List Char := "M+-1..2e+- 3,\u00a04\tz".toList

def malformedTokens : List Token :=
  [ { letter := ⟨.move, true⟩
      text := "+-1..2e+- 3,\u00a04".toList
      operands := ["+", "-1..2e+", "-", "3,", "4"].map fun field => readNumber field.toList },
    { letter := ⟨.close, false⟩
      text := []
      operands := [] } ]

end Example

theorem flatten_fields_and_pieces_malformed :
    tokenize false Example.malformed = .ok Example.malformedTokens ∧
      (Example.malformedTokens.flatMap Token.pieces).flatten = "M+-1..2e+-3,4z".toList ∧
      ∀ token ∈ Example.malformedTokens, token.operands = (fields token.text).map readNumber := by
  have htokens : tokenize false Example.malformed = .ok Example.malformedTokens := by decide +kernel
  obtain ⟨hpieces, hoperands⟩ := flatten_fields_and_pieces.2 false _ _ htokens
  have hkept : (Example.malformed.filter fun c => !isBlank c) = "M+-1..2e+-3,4z".toList := by decide
  exact ⟨htokens, hpieces.trans hkept, hoperands⟩

end TersePath
