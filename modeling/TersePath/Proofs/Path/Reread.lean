import TersePath.Proofs.Path.Operands
import TersePath.Proofs.Path.Separators
import TersePath.Path.Command

/-! Written paths read back. A command whose letter is left out joins the word of the command before it,
so the induction runs from the end of the path and keeps the commands that still wait for a letter apart
from those that already have one. -/

namespace TersePath

lemma forall_of_cons {p : Binary64 → Prop} {x : Binary64} {xs : List Binary64}
    (h : ∀ y ∈ x :: xs, p y) : ∀ y ∈ xs, p y := fun y hy => h y (List.mem_cons_of_mem x hy)

lemma exists_mem_head_nextOperand {text : List Char} (rest : List Char) :
    ∀ c ∈ (nextOperand false text ++ rest).head?, c = '-' ∨ isBlank c := by
  intro c hc
  rw [nextOperand] at hc
  split at hc
  · next h =>
    simp only [Bool.not_false, Bool.true_and, beq_iff_eq] at h
    obtain rfl : '-' = c := by
      cases text with
      | nil => simp at h
      | cons d others => simp_all
    exact Or.inl rfl
  · obtain rfl : ' ' = c := by simpa using hc
    exact Or.inr (by decide)

lemma fields_nextOperand {text : List Char} (h : Spelled text) {rest : List Char}
    (hrest : ∀ c ∈ rest.head?, c = '-' ∨ isBlank c) :
    fields (nextOperand false text ++ rest) = text :: fields rest := by
  rw [nextOperand]
  split
  · exact fields_append h hrest
  · rw [List.cons_append, fields_cons_blank (by decide), fields_append h hrest]

lemma head_nextOperands {operands : List Binary64} {rest : List Char}
    (hrest : ∀ c ∈ rest.head?, c = '-' ∨ isBlank c) :
    ∀ c ∈ ((operands.flatMap fun x => nextOperand false x.spelling) ++ rest).head?,
      c = '-' ∨ isBlank c := by
  cases operands with
  | nil => exact hrest
  | cons x operands =>
    rw [List.flatMap_cons, List.append_assoc]
    exact exists_mem_head_nextOperand _

lemma fields_nextOperands {operands : List Binary64} (h : ∀ x ∈ operands, x.isFinite = true)
    {rest : List Char} (hrest : ∀ c ∈ rest.head?, c = '-' ∨ isBlank c) :
    fields ((operands.flatMap fun x => nextOperand false x.spelling) ++ rest) =
      operands.map Binary64.spelling ++ fields rest := by
  induction operands with
  | nil => rfl
  | cons x operands ih =>
    rw [List.flatMap_cons, List.append_assoc,
      fields_nextOperand (spelled_spelling (h x (by simp))) (head_nextOperands hrest),
      ih (forall_of_cons h), List.map_cons, List.cons_append]

lemma fields_operandsText {operands : List Binary64} (h : ∀ x ∈ operands, x.isFinite = true)
    {rest : List Char} (hrest : ∀ c ∈ rest.head?, c = '-' ∨ isBlank c) :
    fields (operandsText false operands ++ rest) = operands.map Binary64.spelling ++ fields rest := by
  cases operands with
  | nil => rfl
  | cons x operands =>
    rw [operandsText, List.append_assoc,
      fields_append (spelled_spelling (h x (by simp))) (head_nextOperands hrest),
      fields_nextOperands (forall_of_cons h) hrest, List.map_cons, List.cons_append]

lemma isCommandStart_operandsText {operands : List Binary64} (h : ∀ x ∈ operands, x.isFinite = true) :
    ∀ c ∈ operandsText false operands, isCommandStart c = false := by
  have hnext : ∀ x ∈ operands, ∀ c ∈ nextOperand false x.spelling, isCommandStart c = false := by
    intro x hx c hc
    have hspelled := spelled_spelling (h x hx)
    rw [nextOperand] at hc
    split at hc
    · exact hspelled.isCommandStart c hc
    · rcases List.mem_cons.mp hc with rfl | hc
      · rfl
      · exact hspelled.isCommandStart c hc
  cases operands with
  | nil => simp [operandsText]
  | cons x operands =>
    intro c hc
    rcases List.mem_append.mp hc with hc | hc
    · exact (spelled_spelling (h x (by simp))).isCommandStart c hc
    · obtain ⟨y, hy, hc⟩ := List.mem_flatMap.mp hc
      exact hnext y (List.mem_cons_of_mem x hy) c hc

lemma mapM_cons_ok {α β : Type} {f : α → Except PathFault β} {x : α} {xs : List α} {y : β}
    {ys : List β} (hx : f x = .ok y) (hxs : xs.mapM f = .ok ys) : (x :: xs).mapM f = .ok (y :: ys) := by
  rw [List.mapM_cons, hx, hxs]
  rfl

def readFields (strict : Bool) (text : List Char) : Except PathFault (List Binary64) :=
  (fields text).mapM (readField strict)

lemma readFields_append {strict : Bool} {operands : List Binary64}
    (h : ∀ x ∈ operands, x.isFinite = true) {rest : List Char}
    (hrest : ∀ c ∈ rest.head?, c = '-' ∨ isBlank c) {values : List Binary64}
    (hvalues : readFields strict rest = .ok values) :
    readFields strict (operandsText false operands ++ rest) =
      .ok (operands.map Binary64.reread ++ values) := by
  rw [readFields, fields_operandsText h hrest]
  rw [readFields] at hvalues
  induction operands with
  | nil => exact hvalues
  | cons x operands ih =>
    exact mapM_cons_ok (readField_spelling strict (h x (by simp))) (ih (forall_of_cons h))

def readWords (strict : Bool) (text : List Char) : Except PathFault (List Command) := do
  let tokens ← (words text).mapM (readToken strict)
  return (← tokens.mapM Token.commands).flatten

lemma readToken_letter {strict : Bool} (letter : Letter) {text : List Char} {values : List Binary64}
    (h : readFields strict text = .ok values) :
    readToken strict (letter.char :: text) = .ok ⟨letter, trim text, values⟩ := by
  rw [readFields, ← fields_trim] at h
  simp only [readToken, List.head?_cons, Option.bind_some, Letter.ofChar?_char, List.tail_cons, h]
  rfl

lemma bind_eq_ok {α β : Type} {x : Except PathFault α} {f : α → Except PathFault β} {b : β} :
    (x >>= f) = .ok b ↔ ∃ a, x = .ok a ∧ f a = .ok b := by
  cases x with
  | error fault =>
    constructor
    · intro h
      cases h
    · rintro ⟨_, h, -⟩
      cases h
  | ok a =>
    constructor
    · intro h
      exact ⟨a, rfl, h⟩
    · rintro ⟨_, h, hb⟩
      cases h
      exact hb

lemma readWords_eq_ok {strict : Bool} {text : List Char} {commands : List Command} :
    readWords strict text = .ok commands ↔ ∃ tokens lists,
      (words text).mapM (readToken strict) = .ok tokens ∧ tokens.mapM Token.commands = .ok lists ∧
        lists.flatten = commands := by
  rw [readWords, bind_eq_ok]
  constructor
  · rintro ⟨tokens, htokens, h⟩
    obtain ⟨lists, hlists, hflat⟩ := bind_eq_ok.mp h
    exact ⟨tokens, lists, htokens, hlists, Except.ok.inj hflat⟩
  · rintro ⟨tokens, lists, htokens, hlists, rfl⟩
    exact ⟨tokens, htokens, bind_eq_ok.mpr ⟨lists, hlists, rfl⟩⟩

lemma readWords_cons {strict : Bool} {c : Char} {text : List Char} {token : Token}
    {commands later : List Command} (htoken : readToken strict (c :: leading text) = .ok token)
    (hcommands : token.commands = .ok commands)
    (hlater : readWords strict (following text) = .ok later) :
    readWords strict (c :: text) = .ok (commands ++ later) := by
  obtain ⟨tokens, lists, htokens, hlists, rfl⟩ := readWords_eq_ok.mp hlater
  refine readWords_eq_ok.mpr ⟨token :: tokens, commands :: lists, ?_, mapM_cons_ok hcommands hlists, rfl⟩
  rw [words_cons]
  exact mapM_cons_ok htoken htokens

lemma groups_flatten {size : ℕ} {lists : List (List Binary64)} (h : ∀ list ∈ lists, list.length = size) :
    groups size lists.length lists.flatten = lists := by
  induction lists with
  | nil => rfl
  | cons list lists ih =>
    have hlength : list.length = size := h list (by simp)
    rw [List.length_cons, groups, List.flatten_cons, List.take_left' hlength, List.drop_left' hlength,
      ih fun other hother => h other (by simp [hother])]

lemma length_flatMap_operands {commands : List Command} {arity : ℕ}
    (h : ∀ command ∈ commands, command.operands.length = arity) :
    (commands.flatMap Command.operands).length = commands.length * arity := by
  induction commands with
  | nil => simp
  | cons command commands ih =>
    rw [List.flatMap_cons, List.length_append, h command (by simp),
      ih fun other hother => h other (by simp [hother]), List.length_cons, Nat.succ_mul, Nat.add_comm]

lemma commands_token {letter : Letter} (text : List Char) {operands : List Binary64}
    (hoperands : operands.length = letter.kind.arity) (harity : letter.kind.arity ≠ 0)
    {merged : List Command} (hmerged : ∀ m ∈ merged, m.letter = letter.repeated ∧
      m.operands.length = letter.kind.arity ∧ m.Bare) :
    Token.commands ⟨letter, text, operands ++ merged.flatMap Command.operands⟩ =
      .ok ({ letter, operands } :: merged) := by
  have hlists : operands ++ merged.flatMap Command.operands =
      (operands :: merged.map Command.operands).flatten := by
    rw [List.flatten_cons, List.flatMap_def]
  have hlength : (operands ++ merged.flatMap Command.operands).length =
      (merged.length + 1) * letter.kind.arity := by
    rw [List.length_append, hoperands, length_flatMap_operands fun m hm => (hmerged m hm).2.1,
      Nat.succ_mul, Nat.add_comm]
  have hgroups : groups letter.kind.arity (merged.length + 1)
      (operands ++ merged.flatMap Command.operands) = operands :: merged.map Command.operands := by
    rw [hlists]
    have hall : ∀ list ∈ operands :: merged.map Command.operands,
        list.length = letter.kind.arity := by
      intro list hlist
      rcases List.mem_cons.mp hlist with rfl | hlist
      · exact hoperands
      · obtain ⟨m, hm, rfl⟩ := List.mem_map.mp hlist
        exact (hmerged m hm).2.1
    have hcount := groups_flatten hall
    rwa [List.length_cons, List.length_map] at hcount
  have hcount : (merged.length + 1) * letter.kind.arity ≠ 0 := by
    exact mul_ne_zero (Nat.succ_ne_zero _) harity
  have hrest : (merged.map Command.operands).map (fun operands =>
      ({ letter := letter.repeated, operands } : Command)) = merged := by
    rw [List.map_map]
    refine (List.map_congr_left fun m hm => ?_).trans (List.map_id merged)
    obtain ⟨hletter, -, hcloses, htext⟩ := hmerged m hm
    obtain ⟨_, _, _, _⟩ := m
    subst hletter hcloses htext
    rfl
  simp only [Token.commands, harity, if_false, hlength, hcount, Nat.mul_mod_left, ne_eq,
    not_true_eq_false, or_self, Nat.mul_div_cancel _ (Nat.pos_of_ne_zero harity), hgroups, hrest]

/-- A text behind a word: commands without letters of their own, then further words. -/
structure Reads (strict : Bool) (text : List Char) (merged later : List Command) : Prop where
  head : ∀ c ∈ text.head?, c = '-' ∨ isCommandStart c
  fields : readFields strict (leading text) = .ok (merged.flatMap Command.operands)
  words : readWords strict (following text) = .ok later
  merged : ∀ m ∈ merged, m.WellFormed ∧ m.Bare ∧ m.letter.repeated = m.letter ∧ m.kind.arity ≠ 0

namespace Reads

variable {strict : Bool} {text : List Char} {merged later : List Command}

lemma nil : Reads strict [] [] [] where
  head := by simp
  fields := rfl
  words := rfl
  merged := by simp

lemma head_leading (h : Reads strict text merged later) :
    ∀ c ∈ (leading text).head?, c = '-' ∨ isBlank c := by
  intro c hc
  cases text with
  | nil => simp [leading] at hc
  | cons d others =>
    rcases h.head d rfl with rfl | hstart
    · rw [leading, List.takeWhile_cons_of_pos (by decide)] at hc
      obtain rfl : '-' = c := by simpa using hc
      exact Or.inl rfl
    · rw [leading_cons hstart] at hc
      simp at hc

end Reads

def Command.reread (command : Command) : Command :=
  { letter := command.letter, operands := command.operands.map Binary64.reread }

lemma Command.length_reread {command : Command} (h : command.WellFormed) :
    command.reread.operands.length = command.letter.kind.arity := by
  rw [reread, List.length_map]
  exact h

namespace Reads

variable {strict : Bool} {text : List Char} {merged later : List Command}

lemma join (h : Reads strict text merged later) {command : Command} (hproper : command.Proper)
    (hletter : command.letter.repeated = command.letter) (harity : command.kind.arity ≠ 0)
    (hminus : (operandsText false command.operands).head? = some '-') :
    Reads strict (operandsText false command.operands ++ text) (command.reread :: merged) later where
  head := by
    intro c hc
    rw [List.head?_append, hminus, Option.some_or] at hc
    exact Or.inl (Option.some.inj hc).symm
  fields := by
    rw [leading_append (isCommandStart_operandsText hproper.2)]
    exact readFields_append hproper.2 h.head_leading h.fields
  words := by
    rw [following_append (isCommandStart_operandsText hproper.2)]
    exact h.words
  merged := by
    intro m hm
    rcases List.mem_cons.mp hm with rfl | hm
    · exact ⟨Command.length_reread hproper.1, ⟨rfl, rfl⟩, hletter, harity⟩
    · exact h.merged m hm

lemma word (h : Reads strict text merged later) (command : Command) (hproper : command.Proper)
    (hletters : ∀ m ∈ merged, m.letter = command.letter) :
    Reads strict (command.text false ++ text) [] (command.reread :: merged ++ later) where
  head := by
    intro c hc
    obtain rfl : command.letter.char = c := by simpa [Command.text] using hc
    exact Or.inr (isCommandStart_char _)
  fields := by
    rw [Command.text, List.cons_append, leading_cons (isCommandStart_char _)]
    rfl
  words := by
    rw [Command.text, List.cons_append, following_cons (isCommandStart_char _)]
    have hfields := readFields_append hproper.2 h.head_leading h.fields
    have htoken := readToken_letter command.letter hfields
    rw [← leading_append (isCommandStart_operandsText hproper.2)] at htoken
    refine readWords_cons htoken ?_ ?_
    · by_cases harity : command.letter.kind.arity = 0
      · have hmerged : merged = [] := by
          refine List.eq_nil_iff_forall_not_mem.mpr fun m hm => (h.merged m hm).2.2.2 ?_
          rw [Command.kind, hletters m hm, harity]
        have hoperands : command.operands = [] :=
          List.length_eq_zero_iff.mp (hproper.1.trans harity)
        simp [Token.commands, harity, hmerged, hoperands, Command.reread]
      · refine commands_token _ (Command.length_reread hproper.1) harity fun m hm => ?_
        obtain ⟨hwell, hbare, hrepeated, -⟩ := h.merged m hm
        have hletter := hletters m hm
        rw [Command.WellFormed, Command.kind, hletter] at hwell
        rw [hletter] at hrepeated
        exact ⟨hletter.trans hrepeated.symm, hwell, hbare⟩
    · rw [following_append (isCommandStart_operandsText hproper.2)]
      exact h.words
  merged := by simp

end Reads

def Command.closing : Command := { letter := ⟨.close, false⟩, operands := [] }

def written : List Command → List Command
  | [] => []
  | command :: rest =>
    command.reread :: (if command.closesSubpath then [Command.closing] else []) ++ written rest

lemma Reads.close {strict : Bool} {text : List Char} {later : List Command}
    (h : Reads strict text [] later) : Reads strict ('z' :: text) [] (Command.closing :: later) :=
  h.word .closing (by decide) (by simp)

lemma letter_of_char {letter : Letter} (h : letter.char = 'c' ∨ letter.char = 'l') :
    letter.repeated = letter ∧ letter.kind.arity ≠ 0 := by
  obtain ⟨kind, absolute⟩ := letter
  cases kind <;> cases absolute <;> first | exact ⟨rfl, by decide⟩ | exact absurd h (by decide)

lemma letter_char_injective {letter other : Letter} (h : letter.char = other.char) :
    letter = other := by
  have hread := Letter.ofChar?_char letter
  rw [h, Letter.ofChar?_char] at hread
  exact (Option.some.inj hread).symm

theorem reads_serializeFrom (strict : Bool) {config : Config} (hdev : config.devmode = false)
    (letter : Option Char) (closed : Bool) {commands : List Command}
    (h : ∀ command ∈ commands, command.Proper ∧ command.absoluteText = none) :
    ∃ merged later, written commands = merged ++ later ∧
      Reads strict (serializeFrom config letter closed commands) merged later ∧
      ∀ m ∈ merged, letter = some m.letter.char ∧ closed = false := by
  induction commands generalizing letter closed with
  | nil => exact ⟨[], [], rfl, .nil, by simp⟩
  | cons command rest ih =>
    obtain ⟨hproper, htext⟩ := h command (by simp)
    obtain ⟨merged, later, hwritten, hreads, hmerged⟩ := ih (some command.letter.char)
      command.closesSubpath fun c hc => h c (by simp [hc])
    have hletters : ∀ m ∈ merged, m.letter = command.letter := fun m hm =>
      (letter_char_injective (Option.some.inj (hmerged m hm).1)).symm
    -- what follows the operands: the close, if there is one, ends the word
    obtain ⟨merged', later', hafter, hreads', hletters'⟩ : ∃ merged' later',
        (if command.closesSubpath then [Command.closing] else []) ++ written rest = merged' ++ later' ∧
        Reads strict ((if command.closesSubpath then ['z'] else []) ++ serializeFrom config
          (some command.letter.char) command.closesSubpath rest) merged' later' ∧
        ∀ m ∈ merged', m.letter = command.letter := by
      cases hcloses : command.closesSubpath with
      | false => exact ⟨merged, later, hwritten, by simpa [hcloses] using hreads, hletters⟩
      | true =>
        have hnone : merged = [] := by
          refine List.eq_nil_iff_forall_not_mem.mpr fun m hm => ?_
          rw [hcloses] at hmerged
          exact absurd (hmerged m hm).2 (by simp)
        subst hnone
        rw [hcloses] at hreads
        exact ⟨[], Command.closing :: later, by simp [hwritten], hreads.close, by simp⟩
    rw [serializeFrom_cons hdev letter closed ⟨htext, hproper.2⟩, List.append_assoc]
    by_cases homit : (config.removeRepeatedLetters &&
        omitsLetter letter closed (command.text false)) = true
    · obtain ⟨hminus, hletter, hclosed, hchar⟩ := omitsLetter_text (Bool.and_eq_true_iff.mp homit).2
      obtain ⟨hrepeated, harity⟩ := letter_of_char hchar
      rw [if_pos homit]
      refine ⟨command.reread :: merged', later', ?_, hreads'.join hproper hrepeated harity hminus, ?_⟩
      · rw [written, List.cons_append, hafter, List.cons_append]
      · intro m hm
        rcases List.mem_cons.mp hm with rfl | hm
        · exact ⟨hletter, hclosed⟩
        · exact ⟨by rw [hletters' m hm, hletter], hclosed⟩
    · rw [if_neg homit]
      refine ⟨[], command.reread :: merged' ++ later', ?_, hreads'.word command hproper hletters', by simp⟩
      rw [written, List.cons_append, hafter]
      rfl

/-- The same letter, except that every close is relative, and equal operands. -/
structure Command.Same (command other : Command) : Prop where
  letter : other.letter = if command.kind = .close then ⟨.close, false⟩ else command.letter
  operands : List.Forall₂ (fun x y => x.equals y = true) command.operands other.operands
  bare : other.Bare

/-- The path with one close for every run of them. -/
def singleCloses : List Command → List Command
  | [] => []
  | command :: rest =>
    if command.kind == .close && rest.head?.any fun next => next.kind == .close then singleCloses rest
    else command :: singleCloses rest

def Command.lowered (command : Command) : Command :=
  if command.kind = .close then .closing else command.reread

lemma foldCloses_close {command : Command} (h : command.kind = .close) (rest : List Command) :
    foldCloses (command :: rest) = foldCloses rest := by
  simp [foldCloses, markClosed, h]

lemma foldCloses_cons {command : Command} (h : command.kind ≠ .close) (rest : List Command) :
    foldCloses (command :: rest) =
      (if rest.head?.any fun next => next.kind == .close then { command with closesSubpath := true }
        else command) :: foldCloses rest := by
  have hkind : ∀ closed : Bool, (if closed then { command with closesSubpath := true }
      else command).kind = command.kind := by
    intro closed
    cases closed <;> rfl
  simp only [foldCloses, markClosed, bne_iff_ne.mpr h, Bool.true_and]
  rw [List.filter_cons_of_pos]
  rw [hkind]
  exact bne_iff_ne.mpr h

lemma chosenText_bare (config : Config) {command : Command} (h : command.Bare) :
    chosenText config command = command.text config.devmode := by
  simp only [chosenText, h.2]

lemma chosenText_present_or_kept (config : Config) (command : Command) :
    chosenText config command = command.text config.devmode ∨
      ∃ kept, command.absoluteText = some kept ∧ chosenText config command = kept ∧
        config.keepSmallerCommand = true ∧ kept.length < (command.text config.devmode).length := by
  rw [chosenText]
  cases command.absoluteText with
  | none => exact Or.inl rfl
  | some kept =>
    dsimp only
    split
    · next hshort =>
      rw [Bool.and_eq_true, decide_eq_true_eq] at hshort
      exact Or.inr ⟨kept, rfl, rfl, hshort⟩
    · exact Or.inl rfl

lemma written_foldCloses {commands : List Command}
    (h : ∀ command ∈ commands, command.closesSubpath = false) :
    (if commands.head?.any fun next => next.kind == .close then [Command.closing] else []) ++
      written (foldCloses commands) = (singleCloses commands).map Command.lowered := by
  induction commands with
  | nil => rfl
  | cons command rest ih =>
    have hrest := ih fun c hc => h c (by simp [hc])
    by_cases hclose : command.kind = .close
    · rw [foldCloses_close hclose, singleCloses]
      cases hnext : rest.head?.any fun next => next.kind == .close with
      | true =>
        rw [hnext] at hrest
        simpa [hclose] using hrest
      | false =>
        rw [hnext] at hrest
        simpa [hclose, Command.lowered] using hrest
    · rw [foldCloses_cons hclose, singleCloses]
      cases hnext : rest.head?.any fun next => next.kind == .close with
      | true =>
        rw [hnext] at hrest
        simpa [hclose, Command.lowered, written, Command.reread] using hrest
      | false =>
        rw [hnext] at hrest
        simpa [hclose, Command.lowered, written, Command.reread, h command (by simp)] using hrest

lemma same_lowered {command : Command} (h : command.Proper) : command.Same command.lowered := by
  rw [Command.lowered]
  by_cases hclose : command.kind = .close
  · rw [if_pos hclose]
    have hoperands : command.operands = [] := by
      refine List.length_eq_zero_iff.mp (h.1.trans ?_)
      rw [hclose]
      rfl
    refine ⟨?_, ?_, rfl, rfl⟩
    · rw [if_pos hclose]
      rfl
    · rw [hoperands]
      exact .nil
  · rw [if_neg hclose]
    refine ⟨?_, ?_, rfl, rfl⟩
    · rw [if_neg hclose]
      rfl
    · rw [Command.reread, List.forall₂_map_right_iff, List.forall₂_same]
      exact fun x hx => Binary64.equals_reread (h.2 x hx)

def parse (strict : Bool) (text : List Char) : Except PathFault (List Command) :=
  (tokenize strict (normalizeSeparators text)).bind commandsOf

lemma commandsOf_words {strict : Bool} {letter : Letter} (hletter : letter.kind = .move)
    {text : List Char} {commands : List Command}
    (h : readWords strict (letter.char :: text) = .ok commands) :
    (tokenize strict (letter.char :: text)).bind commandsOf = .ok commands := by
  obtain ⟨tokens, lists, htokens, hlists, rfl⟩ := readWords_eq_ok.mp h
  have htokenize : tokenize strict (letter.char :: text) = .ok tokens := by
    rw [tokenize, if_pos (isCommandStart_char letter)]
    exact htokens
  rw [words_cons, List.mapM_cons] at htokens
  obtain ⟨token, htoken, htail⟩ := bind_eq_ok.mp htokens
  obtain ⟨others, -, hothers⟩ := bind_eq_ok.mp htail
  obtain rfl : token :: others = tokens := Except.ok.inj hothers
  have hfirst : token.letter = letter := by
    simp only [readToken, List.head?_cons, Option.bind_some, Letter.ofChar?_char] at htoken
    obtain ⟨values, -, hvalues⟩ := bind_eq_ok.mp htoken
    rw [← Except.ok.inj hvalues]
  rw [htokenize]
  change commandsOf (token :: others) = _
  rw [commandsOf, hlists]
  change (if token.letter.kind = .move then _ else _) = _
  rw [if_pos (hfirst ▸ hletter)]
  rfl

theorem parse_serializeFrom (strict : Bool) (config : Config) {command : Command}
    {rest : List Command} (hmove : command.kind = .move)
    (h : ∀ c ∈ command :: rest, c.Proper ∧ c.absoluteText = none) :
    parse strict (serializeFrom config none false (command :: rest)) =
      .ok (written (command :: rest)) := by
  have hplain : ∀ c ∈ command :: rest, c.Plain := fun c hc => ⟨(h c hc).2, (h c hc).1.2⟩
  obtain ⟨merged, later, hwritten, hreads, hmerged⟩ :=
    reads_serializeFrom strict (show config.compact.devmode = false from rfl) none false h
  obtain rfl : merged = [] :=
    List.eq_nil_iff_forall_not_mem.mpr fun m hm => absurd (hmerged m hm).1 (by simp)
  rw [parse, normalizeSeparators_serializeFrom config hplain, hwritten]
  have hwords := hreads.words
  obtain ⟨others, hothers⟩ := exists_serializeFrom_cons config (hplain command (by simp)) rest
  rw [hothers] at hwords ⊢
  rw [following_cons (isCommandStart_char _)] at hwords
  exact commandsOf_words hmove hwords

lemma kind_lowered (command : Command) : command.lowered.kind = command.kind := by
  rw [Command.lowered]
  split
  · next hclose => exact hclose.symm
  · rfl

lemma singleCloses_cons {command : Command} (h : command.kind ≠ .close) (rest : List Command) :
    singleCloses (command :: rest) = command :: singleCloses rest := by
  rw [singleCloses, beq_eq_false_iff_ne.mpr h, Bool.false_and, if_neg Bool.false_ne_true]

lemma mem_singleCloses {commands : List Command} {command : Command}
    (h : command ∈ singleCloses commands) : command ∈ commands := by
  induction commands with
  | nil => exact h
  | cons first rest ih =>
    rw [singleCloses] at h
    split at h
    · exact List.mem_cons_of_mem first (ih h)
    · rcases List.mem_cons.mp h with rfl | h
      · exact List.mem_cons_self
      · exact List.mem_cons_of_mem first (ih h)

lemma mem_foldCloses {commands : List Command} (hproper : ∀ command ∈ commands, command.Proper)
    (hbare : ∀ command ∈ commands, command.Bare) :
    ∀ command ∈ foldCloses commands, command.Proper ∧ command.absoluteText = none := by
  induction commands with
  | nil => simp [foldCloses, markClosed]
  | cons command rest ih =>
    have hrest := ih (fun c hc => hproper c (by simp [hc])) fun c hc => hbare c (by simp [hc])
    by_cases hclose : command.kind = .close
    · rwa [foldCloses_close hclose]
    · rw [foldCloses_cons hclose]
      intro c hc
      rcases List.mem_cons.mp hc with rfl | hc
      · split
        · exact ⟨hproper command (by simp), (hbare command (by simp)).2⟩
        · exact ⟨hproper command (by simp), (hbare command (by simp)).2⟩
      · exact hrest c hc

lemma parse_serialize_lowered (config : Config) (strict : Bool) {commands : List Command}
    (hmove : ∀ command ∈ commands.head?, command.kind = .move)
    (hproper : ∀ command ∈ commands, command.Proper) (hbare : ∀ command ∈ commands, command.Bare) :
    parse strict (serialize config commands) =
      .ok ((singleCloses commands).map Command.lowered) := by
  cases commands with
  | nil => rfl
  | cons command rest =>
    have hkind : command.kind = .move := hmove command rfl
    have hopen : command.kind ≠ .close := by
      rw [hkind]
      decide
    have hall := mem_foldCloses hproper hbare
    have hwritten := written_foldCloses fun c hc => (hbare c hc).1
    rw [List.head?_cons, Option.any_some, beq_eq_false_iff_ne.mpr hopen, if_neg Bool.false_ne_true,
      List.nil_append] at hwritten
    rw [← hwritten, serialize]
    rw [foldCloses_cons hopen rest] at hall ⊢
    refine parse_serializeFrom strict config ?_ hall
    split
    · exact hkind
    · exact hkind

/-- Reading what was written gives the path back, whatever the settings. -/
theorem parse_serialize (config : Config) (strict : Bool) {commands : List Command}
    (hmove : commands.head?.map Command.kind = some .move)
    (hproper : ∀ command ∈ commands, command.Proper) (hbare : ∀ command ∈ commands, command.Bare) :
    ∃ parsed, parse strict (serialize config commands) = .ok parsed ∧
      List.Forall₂ Command.Same (singleCloses commands) parsed := by
  have hhead : ∀ command ∈ commands.head?, command.kind = .move := by
    intro command hcommand
    rw [Option.mem_def.mp hcommand] at hmove
    exact Option.some.inj hmove
  refine ⟨_, parse_serialize_lowered config strict hhead hproper hbare, ?_⟩
  rw [List.forall₂_map_right_iff, List.forall₂_same]
  exact fun c hc => same_lowered (hproper c (mem_singleCloses hc))

namespace Example

def closes : List Command :=
  let n := Binary64.ofInt
  [ { letter := ⟨.move, true⟩, operands := [n 3, n (-4)] },
    { letter := ⟨.line, false⟩, operands := [n 1, n 2] },
    { letter := ⟨.line, false⟩, operands := [n (-5), n 0] },
    { letter := ⟨.close, true⟩, operands := [] },
    { letter := ⟨.close, false⟩, operands := [] },
    { letter := ⟨.line, false⟩, operands := [n (-5), n 10] } ]

end Example

theorem parse_serialize_closes :
    Example.closes.head?.map Command.kind = some .move ∧ (∀ c ∈ Example.closes, c.Proper) ∧
      (∀ c ∈ Example.closes, c.Bare) ∧ ∃ parsed,
        parse true (serialize {} Example.closes) = .ok parsed ∧
        List.Forall₂ Command.Same (singleCloses Example.closes) parsed :=
  have hmove : Example.closes.head?.map Command.kind = some .move := by decide +kernel
  have hproper : ∀ c ∈ Example.closes, c.Proper := by decide +kernel
  have hbare : ∀ c ∈ Example.closes, c.Bare := by decide +kernel
  ⟨hmove, hproper, hbare, parse_serialize {} true hmove hproper hbare⟩

end TersePath
