import TersePath.Proofs.Number.Literal
import TersePath.Proofs.Path.Derived
import TersePath.Proofs.Path.Parse

/-! The letters and fields of a text as it was before its separators were normalized. A strict reading
that succeeds finds nothing but letters, numbers and separators, and it takes a number out of one word,
unless the number has lost separators between its exponent mark and a minus sign. -/

namespace TersePath

def isSeparator (c : Char) : Bool := isBlank c || c == ','

/-- Pieces that make up a text in their order, with nothing but separators beside them. -/
inductive Laid (stands : List Char → List Char → Prop) : List Char → List (List Char) → Prop
  | nil : Laid stands [] []
  | separator {c : Char} {text : List Char} {pieces : List (List Char)} (hc : isSeparator c = true)
      (h : Laid stands text pieces) : Laid stands (c :: text) pieces
  | piece {source piece text : List Char} {pieces : List (List Char)} (hpiece : stands source piece)
      (h : Laid stands text pieces) : Laid stands (source ++ text) (piece :: pieces)

def Unbroken (source piece : List Char) : Prop :=
  source = piece ∧ ∀ c ∈ piece, isSeparator c = false

/-- A piece from which separators may be lost between an exponent mark and a minus sign. -/
inductive Mended : List Char → List Char → Prop
  | nil : Mended [] []
  | cons {c : Char} {source piece : List Char} (hc : isSeparator c = false) (h : Mended source piece) :
      Mended (c :: source) (c :: piece)
  | mend {mark : Char} {gap source piece : List Char} (hmark : isExponentMark mark = true)
      (hgap : ∀ c ∈ gap, isSeparator c = true) (h : Mended ('-' :: source) ('-' :: piece)) :
      Mended (mark :: (gap ++ '-' :: source)) (mark :: '-' :: piece)

def Token.pieces (token : Token) : List (List Char) := [token.letter.char] :: fields token.text

/-- What normalizing may make of a text. Separators become blanks, further blanks come in, and separators
in front of a command letter or a minus sign may go. -/
inductive Tidied : List Char → List Char → Prop
  | nil : Tidied [] []
  | copy {c : Char} {raw text : List Char} (hc : isSeparator c = false) (h : Tidied raw text) :
      Tidied (c :: raw) (c :: text)
  | respell {c b : Char} {raw text : List Char} (hc : isSeparator c = true) (hb : isBlank b = true)
      (h : Tidied raw text) : Tidied (c :: raw) (b :: text)
  | drop {c d : Char} {raw text : List Char} (hc : isSeparator c = true)
      (hd : isCommandStart d = true ∨ d = '-') (h : Tidied raw (d :: text)) :
      Tidied (c :: raw) (d :: text)
  | part {b : Char} {raw text : List Char} (hb : isBlank b = true) (h : Tidied raw text) :
      Tidied raw (b :: text)

lemma isSeparator_eq_false_iff {c : Char} : isSeparator c = false ↔ isBlank c = false ∧ c ≠ ',' := by
  rw [isSeparator, Bool.or_eq_false_iff, beq_eq_false_iff_ne]

lemma isSeparator_of_begins {d : Char} (h : isCommandStart d = true ∨ d = '-') :
    isSeparator d = false := by
  rw [isSeparator_eq_false_iff]
  obtain h | rfl := h
  · constructor
    · by_contra hblank
      rw [isCommandStart_of_isBlank (Bool.not_eq_false _ ▸ hblank)] at h
      cases h
    · rintro rfl
      exact absurd h (by decide)
  · decide

lemma isSeparator_of_mark {c : Char} (h : isExponentMark c = true) : isSeparator c = false := by
  obtain ⟨hblank, -, -, -, -, hcomma, -⟩ := mark_spec (isExponentMark_iff.mp h)
  exact isSeparator_eq_false_iff.mpr ⟨hblank, hcomma⟩

namespace Tidied

lemma partFractions (part : NumberPart) (text : List Char) :
    Tidied text (partFractions part (text.map fun c => if c = ',' then ' ' else c)) := by
  induction text generalizing part with
  | nil => exact .nil
  | cons c rest ih =>
    by_cases hc : isSeparator c = true
    · have hblank : isBlank (if c = ',' then ' ' else c) = true := by
        by_cases hcomma : c = ','
        · rw [if_pos hcomma]
          decide
        · rw [if_neg hcomma]
          simpa [isSeparator, hcomma] using hc
      have hpoint : (if c = ',' then ' ' else c) ≠ '.' := by
        intro hpoint
        rw [hpoint] at hblank
        exact absurd hblank (by decide)
      rw [List.map_cons, partFractions_cons fun h => absurd h hpoint]
      exact .respell hc hblank (ih _)
    · rw [Bool.not_eq_true] at hc
      rw [List.map_cons, if_neg (isSeparator_eq_false_iff.mp hc).2, TersePath.partFractions]
      split
      · next hpoint =>
        subst hpoint
        split
        · exact .part (by decide) (.copy hc (ih _))
        · exact .copy hc (ih _)
      · split
        · exact .copy hc (ih _)
        · exact .copy hc (ih _)

variable {raw text : List Char}

lemma dropBlanksBefore {begins : Char → Bool}
    (hbegins : ∀ d, begins d = true → isCommandStart d = true ∨ d = '-') (h : Tidied raw text) :
    Tidied raw (dropBlanksBefore begins text) := by
  induction h with
  | nil => exact .nil
  | copy hc _ ih =>
    rw [dropBlanksBefore_of_not_blank begins (isSeparator_eq_false_iff.mp hc).1]
    exact .copy hc ih
  | @respell c b raw text hc hb _ ih =>
    rw [dropBlanksBefore_cons]
    split
    · next hdrop =>
      -- the separator is lost where its blank is
      cases hrest : TersePath.dropBlanksBefore begins text with
      | nil => simp [hrest] at hdrop
      | cons d others =>
        rw [hrest] at hdrop ih
        exact .drop hc (hbegins d (Bool.and_eq_true_iff.mp hdrop).2) ih
    · exact .respell hc hb ih
  | @drop c d raw text hc hd _ ih =>
    have hblank := (isSeparator_eq_false_iff.mp (isSeparator_of_begins hd)).1
    rw [dropBlanksBefore_of_not_blank begins hblank] at ih ⊢
    exact .drop hc hd ih
  | part hb _ ih =>
    rw [dropBlanksBefore_cons]
    split
    · exact ih
    · exact .part hb ih

lemma squeeze (part : NumberPart) (text : List Char) : Tidied text (squeeze part text) := by
  have hletters := (partFractions part text).dropBlanksBefore fun d hd => Or.inl hd
  exact hletters.dropBlanksBefore fun d hd => Or.inr (beq_iff_eq.mp hd)

lemma eq_nil (h : Tidied raw []) : raw = [] := by
  cases h
  rfl

lemma of_separator {c : Char} (h : Tidied raw (c :: text)) (hc : isSeparator c = true) :
    ∃ gap rest, raw = gap ++ rest ∧ (∀ d ∈ gap, isSeparator d = true) ∧ Tidied rest text := by
  cases h with
  | copy hcopy _ => simp [hcopy] at hc
  | @respell c' _ raw _ hc' _ h => exact ⟨[c'], raw, rfl, List.forall_mem_singleton.mpr hc', h⟩
  | drop _ hd _ => simp [isSeparator_of_begins hd] at hc
  | part _ h => exact ⟨[], raw, rfl, by simp, h⟩

lemma of_not_blank {c : Char} (h : Tidied raw (c :: text)) (hc : isBlank c = false) :
    isSeparator c = false ∧ ∃ gap rest, raw = gap ++ c :: rest ∧ (∀ d ∈ gap, isSeparator d = true) ∧
      (gap = [] ∨ isCommandStart c = true ∨ c = '-') ∧ Tidied rest text := by
  generalize hfull : c :: text = full at h
  induction h with
  | nil => cases hfull
  | @copy _ raw _ hcopy h _ =>
    cases hfull
    exact ⟨hcopy, [], raw, rfl, by simp, Or.inl rfl, h⟩
  | respell _ hb _ _ =>
    cases hfull
    simp [hb] at hc
  | @drop s _ raw _ hs hd _ ih =>
    obtain ⟨hplain, gap, rest, rfl, hgap, -, htail⟩ := ih hfull
    cases hfull
    exact ⟨hplain, s :: gap, rest, rfl, List.forall_mem_cons.mpr ⟨hs, hgap⟩, Or.inr hd, htail⟩
  | part hb _ _ =>
    cases hfull
    simp [hb] at hc

lemma of_field {c : Char} {field : List Char} (h : Tidied raw (c :: (field ++ text)))
    (hblank : ∀ d ∈ c :: field, isBlank d = false)
    (hchain : (c :: field).IsChain fun d e => isCommandStart e = false ∧
      (e = '-' → isExponentMark d = true)) :
    ∃ gap source rest, raw = gap ++ c :: (source ++ rest) ∧ (∀ d ∈ gap, isSeparator d = true) ∧
      (gap = [] ∨ isCommandStart c = true ∨ c = '-') ∧ Mended (c :: source) (c :: field) ∧
      Tidied rest text := by
  induction field generalizing c raw with
  | nil =>
    obtain ⟨hplain, gap, rest, rfl, hgap, hlost, hrest⟩ := h.of_not_blank (hblank c (by simp))
    exact ⟨gap, [], rest, rfl, hgap, hlost, .cons hplain .nil, hrest⟩
  | cons d field ih =>
    obtain ⟨hplain, gap, others, rfl, hgap, hlost, hothers⟩ := h.of_not_blank (hblank c (by simp))
    obtain ⟨⟨hletter, hminus⟩, htail⟩ := List.isChain_cons_cons.mp hchain
    obtain ⟨gap', source, rest, rfl, hgap', hlost', hmended, hrest⟩ :=
      ih hothers (List.forall_mem_cons.mp hblank).2 htail
    obtain rfl | hstart | rfl := hlost'
    · exact ⟨gap, d :: source, rest, rfl, hgap, hlost, .cons hplain hmended, hrest⟩
    · simp [hletter] at hstart
    · exact ⟨gap, gap' ++ '-' :: source, rest, by simp, hgap, hlost,
        .mend (hminus rfl) hgap' hmended, hrest⟩

end Tidied

structure Cohesive (piece : List Char) : Prop where
  ne_nil : piece ≠ []
  isBlank : ∀ c ∈ piece, isBlank c = false
  isChain : piece.IsChain fun c d => isCommandStart d = false ∧ (d = '-' → isExponentMark c = true)
  last : ∀ c ∈ piece.getLast?, isExponentMark c = false

lemma Solid.cohesive {field : List Char} (h : Solid field) : Cohesive field where
  ne_nil := h.ne_nil
  isBlank := h.isBlank
  isChain := by
    refine h.isChain.imp_of_mem_imp fun c d _ hd hcontinues => ⟨h.isCommandStart d hd, ?_⟩
    rintro rfl
    have hsign : isSign '-' = true := by decide
    simp only [continuesField, hsign, Bool.not_true, Bool.false_or, Bool.and_eq_true] at hcontinues
    exact hcontinues.2
  last := h.last

lemma cohesive_char (letter : Letter) : Cohesive [letter.char] where
  ne_nil := List.cons_ne_nil _ _
  isBlank := List.forall_mem_singleton.mpr (letter_spec letter).1
  isChain := .singleton _
  last := by
    intro c hc
    obtain rfl : letter.char = c := by simpa using hc
    by_contra hmark
    obtain ⟨-, hstart, -⟩ := mark_spec (isExponentMark_iff.mp (Bool.not_eq_false _ ▸ hmark))
    rw [isCommandStart_char] at hstart
    cases hstart

section Laid

variable {stands : List Char → List Char → Prop} {text : List Char} {pieces : List (List Char)}

lemma laid_gap {gap : List Char} (h : ∀ c ∈ gap, isSeparator c = true) : Laid stands gap [] := by
  induction gap with
  | nil => exact .nil
  | cons c gap ih =>
    obtain ⟨hc, hgap⟩ := List.forall_mem_cons.mp h
    exact .separator hc (ih hgap)

lemma laid_blanks {gap : List Char} (h : ∀ c ∈ gap, isBlank c = true) : Laid stands gap [] :=
  laid_gap fun c hc => by simp [isSeparator, h c hc]

lemma Laid.append {rest : List Char} {others : List (List Char)} (h : Laid stands text pieces)
    (h' : Laid stands rest others) : Laid stands (text ++ rest) (pieces ++ others) := by
  induction h with
  | nil => exact h'
  | separator hc _ ih => exact .separator hc ih
  | piece hpiece _ ih =>
    rw [List.append_assoc, List.cons_append]
    exact .piece hpiece ih

lemma Laid.of_trim (h : Laid stands (trim text) pieces) : Laid stands text pieces := by
  obtain ⟨blanks, hblanks, hall⟩ := exists_trimEnd (text.dropWhile isBlank)
  have hfront : Laid stands (text.takeWhile isBlank) [] :=
    laid_blanks fun _ hc => List.mem_takeWhile_imp hc
  have hwhole := hfront.append (h.append (laid_blanks hall))
  rwa [trim, ← hblanks, List.takeWhile_append_dropWhile, List.append_nil, List.nil_append] at hwhole

lemma laid_of_tidied {raw : List Char} (h : Tidied raw text) (hpieces : Laid Eq text pieces)
    (hcohesive : ∀ piece ∈ pieces, Cohesive piece) : Laid Mended raw pieces := by
  induction hpieces generalizing raw with
  | nil =>
    rw [h.eq_nil]
    exact .nil
  | separator hc _ ih =>
    obtain ⟨gap, rest, rfl, hgap, hrest⟩ := h.of_separator hc
    exact (laid_gap hgap).append (ih hrest hcohesive)
  | @piece source piece text pieces heq _ ih =>
    subst heq
    obtain ⟨hpiece, hothers⟩ := List.forall_mem_cons.mp hcohesive
    obtain ⟨c, field, rfl⟩ := List.exists_cons_of_ne_nil hpiece.ne_nil
    obtain ⟨gap, source, rest, rfl, hgap, -, hmended, hrest⟩ := h.of_field hpiece.isBlank hpiece.isChain
    exact (laid_gap hgap).append (.piece hmended (ih hrest hothers))

lemma laid_fields (text : List Char) : Laid Eq text (fields text) := by
  have hgroups : ∀ groups : List (List Char),
      Laid Eq groups.flatten (groups.filter fun group => !group.all isBlank) := by
    intro groups
    induction groups with
    | nil => exact .nil
    | cons group groups ih =>
      by_cases hblank : group.all isBlank = true
      · rw [List.filter_cons_of_neg (by simp [hblank]), List.flatten_cons]
        exact (laid_blanks (List.all_eq_true.mp hblank)).append ih
      · rw [List.filter_cons_of_pos (by simpa using hblank), List.flatten_cons]
        exact .piece rfl ih
  have hwhole := hgroups (text.splitBy continuesField)
  rwa [List.flatten_splitBy] at hwhole

end Laid

lemma isBlank_of_isChain {group : List Char}
    (h : group.IsChain fun c d => continuesField c d = true) (hsome : ¬group.all isBlank) :
    ∀ c ∈ group, isBlank c = false := by
  induction group with
  | nil => simp
  | cons c group ih =>
    cases group with
    | nil => simpa using hsome
    | cons d group =>
      obtain ⟨hlink, hrest⟩ := List.isChain_cons_cons.mp h
      simp only [continuesField, Bool.and_eq_true, Bool.not_eq_true'] at hlink
      exact List.forall_mem_cons.mpr ⟨hlink.1.1, ih hrest (by simp [hlink.1.2])⟩

lemma solid_of_mem_fields {text field : List Char} (htext : ∀ c ∈ text, isCommandStart c = false)
    (hfield : field ∈ fields text) (hwritten : Numeral.Written field) : Solid field := by
  obtain ⟨hmem, hsome⟩ := List.mem_filter.mp hfield
  have hchain := List.isChain_of_mem_splitBy hmem
  exact {
    ne_nil := List.ne_nil_of_mem_splitBy hmem
    isChain := hchain
    isBlank := isBlank_of_isChain hchain (by simpa using hsome)
    isCommandStart := fun c hc => htext c (by
      rw [← List.flatten_splitBy continuesField text]
      exact List.mem_flatten_of_mem hmem hc)
    last := fun c hc => by
      obtain hdigit | rfl := hwritten.last c hc
      · exact isExponentMark_of_isDigit hdigit
      · decide }

lemma Kind.char_of_ofChar? {c : Char} {kind : Kind} (h : ofChar? c = some kind) : kind.char = c := by
  unfold ofChar? at h
  split at h <;> cases h <;> rfl

lemma Letter.char_of_ofChar? {c : Char} {letter : Letter} (h : ofChar? c = some letter) :
    letter.char = c := by
  obtain ⟨kind, hkind, rfl⟩ := Option.map_eq_some_iff.mp h
  have hlower := Kind.char_of_ofChar? hkind
  by_cases hupper : c.isUpper
  · rw [char, if_pos hupper, hlower, Char.toUpper_toLower_eq_toUpper,
      Char.toUpper_eq_of_not_isLower (Char.not_isLower_of_isUpper hupper)]
  · rw [char, if_neg hupper, hlower, Char.toLower_eq_of_not_isUpper hupper]

lemma readToken_cases {strict : Bool} {c : Char} {rest : List Char} {token : Token}
    (h : readToken strict (c :: rest) = .ok token) :
    token.letter.char = c ∧ token.text = trim rest ∧
      List.Forall₂ (fun field x => readField strict field = .ok x) (fields token.text) token.operands := by
  rw [readToken] at h
  split at h
  · cases h
  · next letter hletter =>
    obtain ⟨values, hvalues, htoken⟩ := bind_eq_ok.mp h
    obtain rfl := Except.ok.inj htoken
    exact ⟨Letter.char_of_ofChar? hletter, rfl, mapM_eq_ok_iff.mp hvalues⟩

lemma eq_readNumber_of_readField {strict : Bool} {field : List Char} {x : Binary64}
    (h : readField strict field = .ok x) : x = readNumber field := by
  rw [readField] at h
  split at h
  · cases h
  · split at h
    · cases h
    · exact (Except.ok.inj h).symm

lemma eq_map_of_readFields {strict : Bool} {texts : List (List Char)} {values : List Binary64}
    (h : List.Forall₂ (fun field x => readField strict field = .ok x) texts values) :
    values = texts.map readNumber := by
  induction h with
  | nil => rfl
  | cons hfield _ ih => rw [eq_readNumber_of_readField hfield, ih, List.map_cons]

lemma written_of_readField {field : List Char} {x : Binary64} (h : readField true field = .ok x) :
    Numeral.Written field := by
  rw [readField] at h
  split at h
  · cases h
  · split at h
    · cases h
    · next hnumeral => exact Numeral.written_of_isNumeral (by simpa using hnumeral)

lemma written_of_readFields {texts : List (List Char)} {values : List Binary64}
    (h : List.Forall₂ (fun field x => readField true field = .ok x) texts values) :
    ∀ field ∈ texts, Numeral.Written field := by
  induction h with
  | nil => simp
  | cons hfield _ ih => exact List.forall_mem_cons.mpr ⟨written_of_readField hfield, ih⟩

/-- A token that was read strictly. Its fields are numbers, and its operands are their values. -/
structure Token.Strict (token : Token) : Prop where
  written : ∀ field ∈ fields token.text, Numeral.Written field
  operands : token.operands = (fields token.text).map readNumber

lemma readToken_strict {c : Char} {rest : List Char} {token : Token}
    (h : readToken true (c :: rest) = .ok token) :
    token.letter.char = c ∧ token.text = trim rest ∧ token.Strict := by
  obtain ⟨hletter, htext, hvalues⟩ := readToken_cases h
  exact ⟨hletter, htext, written_of_readFields hvalues, eq_map_of_readFields hvalues⟩

lemma forall_of_isChain_cons {p : Char → Bool} {c : Char} {front : List Char}
    (h : (c :: front).IsChain fun _ y => p y = true) : ∀ y ∈ front, p y = true := by
  induction front generalizing c with
  | nil => simp
  | cons d front ih =>
    obtain ⟨hd, hrest⟩ := List.isChain_cons_cons.mp h
    exact List.forall_mem_cons.mpr ⟨hd, ih hrest⟩

lemma laid_word {word : List Char} {token : Token} (h : readToken true word = .ok token)
    (hword : word.IsChain fun _ c => (!isCommandStart c) = true) :
    Laid Eq word token.pieces ∧ (∀ piece ∈ token.pieces, Cohesive piece) ∧ token.Strict := by
  cases word with
  | nil => cases h
  | cons c rest =>
    obtain ⟨rfl, htext, hstrict⟩ := readToken_strict h
    have hfields : fields token.text = fields rest := by rw [htext, fields_trim]
    have hstart : ∀ d ∈ rest, isCommandStart d = false := fun d hd => by
      simpa using forall_of_isChain_cons hword d hd
    have hlaid : Laid Eq ([token.letter.char] ++ rest) ([token.letter.char] :: fields token.text) :=
      .piece rfl (hfields ▸ laid_fields rest)
    refine ⟨hlaid, List.forall_mem_cons.mpr ⟨cohesive_char _, fun field hfield => ?_⟩, hstrict⟩
    have hwritten := hstrict.written field hfield
    rw [hfields] at hfield
    exact (solid_of_mem_fields hstart hfield hwritten).cohesive

lemma laid_words {texts : List (List Char)} {tokens : List Token}
    (h : List.Forall₂ (fun word token => readToken true word = .ok token) texts tokens)
    (htexts : ∀ word ∈ texts, word.IsChain fun _ c => (!isCommandStart c) = true) :
    Laid Eq texts.flatten (tokens.flatMap Token.pieces) ∧
      (∀ piece ∈ tokens.flatMap Token.pieces, Cohesive piece) ∧ ∀ token ∈ tokens, token.Strict := by
  induction h with
  | nil => exact ⟨.nil, by simp, by simp⟩
  | cons hword _ ih =>
    obtain ⟨hfirst, hothers⟩ := List.forall_mem_cons.mp htexts
    obtain ⟨hlaid, hcohesive, hstrict⟩ := laid_word hword hfirst
    obtain ⟨hlaid', hcohesive', hstrict'⟩ := ih hothers
    rw [List.flatten_cons, List.flatMap_cons]
    exact ⟨hlaid.append hlaid', List.forall_mem_append.mpr ⟨hcohesive, hcohesive'⟩,
      List.forall_mem_cons.mpr ⟨hstrict, hstrict'⟩⟩

lemma laid_tokens {text : List Char} {tokens : List Token} (h : tokenize true text = .ok tokens) :
    Laid Eq text (tokens.flatMap Token.pieces) ∧
      (∀ piece ∈ tokens.flatMap Token.pieces, Cohesive piece) ∧ ∀ token ∈ tokens, token.Strict := by
  rw [tokenize.eq_def] at h
  split at h
  · obtain rfl : [] = tokens := Except.ok.inj h
    exact ⟨.nil, by simp, by simp⟩
  · next text c rest =>
    split at h
    · have hlaid := laid_words (mapM_eq_ok_iff.mp h) fun word hword => List.isChain_of_mem_splitBy hword
      rwa [words, List.flatten_splitBy] at hlaid
    · cases h

lemma Mended.unbroken {source piece : List Char} (h : Mended source piece)
    (hchain : source.IsChain fun c d => isExponentMark c = true → isSeparator d = false) :
    Unbroken source piece := by
  induction h with
  | nil => exact ⟨rfl, by simp⟩
  | cons hc _ ih =>
    obtain ⟨rfl, hrest⟩ := ih hchain.tail
    exact ⟨rfl, List.forall_mem_cons.mpr ⟨hc, hrest⟩⟩
  | @mend mark gap source piece hmark hgap _ ih =>
    cases gap with
    | nil =>
      obtain ⟨heq, hrest⟩ := ih hchain.tail
      rw [List.nil_append, heq]
      exact ⟨rfl, List.forall_mem_cons.mpr ⟨isSeparator_of_mark hmark, hrest⟩⟩
    | cons c gap =>
      have hplain := (List.isChain_cons_cons.mp hchain).1 hmark
      rw [hgap c (by simp)] at hplain
      cases hplain

lemma laid_unbroken_iff {text : List Char} {pieces : List (List Char)} (h : Laid Mended text pieces)
    (hcohesive : ∀ piece ∈ pieces, Cohesive piece) : Laid Unbroken text pieces ↔
      text.IsChain fun c d => isExponentMark c = true → isSeparator d = false := by
  constructor
  · intro hlaid
    clear h
    induction hlaid with
    | nil => exact .nil
    | separator hc _ ih =>
      refine (ih hcohesive).cons fun d _ hmark => ?_
      rw [isSeparator_of_mark hmark] at hc
      cases hc
    | piece hpiece _ ih =>
      obtain ⟨rfl, hplain⟩ := hpiece
      obtain ⟨hfirst, hothers⟩ := List.forall_mem_cons.mp hcohesive
      have hpairs := List.pairwise_of_forall_mem_list fun c _ d hd (_ : isExponentMark c = true) =>
        hplain d hd
      refine hpairs.isChain.append (ih hothers) fun c hc d _ hmark => ?_
      rw [hfirst.last c hc] at hmark
      cases hmark
  · intro hchain
    induction h with
    | nil => exact .nil
    | separator hc _ ih => exact .separator hc (ih hcohesive hchain.tail)
    | piece hpiece _ ih =>
      exact .piece (hpiece.unbroken hchain.left_of_append)
        (ih (List.forall_mem_cons.mp hcohesive).2 hchain.right_of_append)

/-- A strict reading that succeeds finds letters and numbers in the text and nothing else but
separators. A number lies within one word, unless a separator follows an exponent mark. -/
theorem laid_of_tokenize {text : List Char} {tokens : List Token}
    (h : tokenize true (normalizeSeparators text) = .ok tokens) :
    Laid Mended text (tokens.flatMap Token.pieces) ∧
      (Laid Unbroken text (tokens.flatMap Token.pieces) ↔
        text.IsChain fun c d => isExponentMark c = true → isSeparator d = false) ∧
      ∀ token ∈ tokens, (∀ field ∈ fields token.text, Numeral.Written field) ∧
        token.operands = (fields token.text).map readNumber := by
  obtain ⟨hlaid, hcohesive, hstrict⟩ := laid_tokens h
  have hmended := laid_of_tidied (Tidied.squeeze .whole text) hlaid.of_trim hcohesive
  exact ⟨hmended, laid_unbroken_iff hmended hcohesive,
    fun token htoken => ⟨(hstrict token htoken).written, (hstrict token htoken).operands⟩⟩

namespace Example

def scattered : List Char := " M1.5.5e ,-1+2-3,L.5\t-1 z".toList

def scatteredTokens : List Token :=
  [ { letter := ⟨.move, true⟩
      text := "1.5 .5e-1+2-3".toList
      operands := ["1.5", ".5e-1", "+2", "-3"].map fun field => readNumber field.toList },
    { letter := ⟨.line, true⟩
      text := ".5-1".toList
      operands := [".5", "-1"].map fun field => readNumber field.toList },
    { letter := ⟨.close, false⟩
      text := []
      operands := [] } ]

def joined : List Char := "M1e -5 0".toList

def joinedTokens : List Token :=
  [ { letter := ⟨.move, true⟩
      text := "1e-5 0".toList
      operands := ["1e-5", "0"].map fun field => readNumber field.toList } ]

end Example

theorem laid_of_tokenize_scattered :
    tokenize true (normalizeSeparators Example.scattered) = .ok Example.scatteredTokens ∧
      Example.scatteredTokens.flatMap Token.pieces =
        ["M", "1.5", ".5e-1", "+2", "-3", "L", ".5", "-1", "z"].map String.toList ∧
      Laid Mended Example.scattered (Example.scatteredTokens.flatMap Token.pieces) ∧
      ¬Laid Unbroken Example.scattered (Example.scatteredTokens.flatMap Token.pieces) ∧
      ∀ token ∈ Example.scatteredTokens, (∀ field ∈ fields token.text, Numeral.Written field) ∧
        token.operands = (fields token.text).map readNumber := by
  have htokens : tokenize true (normalizeSeparators Example.scattered) = .ok Example.scatteredTokens := by
    decide +kernel
  obtain ⟨hmended, hunbroken, hstrict⟩ := laid_of_tokenize htokens
  exact ⟨htokens, by decide, hmended, mt hunbroken.mp (by decide), hstrict⟩

/-- A strict reading that succeeds reads a number which stands nowhere in the text. A plus sign in place
of the minus sign has the text refused. -/
theorem tokenize_joins_words :
    tokenize true (normalizeSeparators Example.joined) = .ok Example.joinedTokens ∧
      (∃ token ∈ Example.joinedTokens, ∃ field ∈ fields token.text, ¬field <:+: Example.joined) ∧
      tokenize true (normalizeSeparators "M1e +5 0".toList) = .error (.malformedNumber "1e".toList) := by
  refine ⟨by decide +kernel, ⟨_, List.mem_cons_self, "1e-5".toList, by decide, by decide⟩, ?_⟩
  decide +kernel

end TersePath
