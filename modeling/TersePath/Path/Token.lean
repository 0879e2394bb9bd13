import TersePath.Fault
import TersePath.Number.Numeral
import TersePath.Path.Separators

/-!
Tokens of path text. A token is a command letter with the fields that follow it; a sign begins a new
field, unless it stands right after an exponent marker.
-/

namespace TersePath

structure Token where
  letter : Letter
  text : List Char
  operands : List Binary64
deriving DecidableEq

def Token.source (token : Token) : List Char := token.letter.char :: token.text

def isSign (c : Char) : Bool := c == '+' || c == '-'

def isExponentMark (c : Char) : Bool := c == 'e' || c == 'E'

theorem isExponentMark_iff {c : Char} : isExponentMark c = true ↔ c = 'e' ∨ c = 'E' := by
  rw [isExponentMark, Bool.or_eq_true, beq_iff_eq, beq_iff_eq]

theorem isExponentMark_of_isDigit {c : Char} (h : isDigit c) : isExponentMark c = false := by
  rw [isExponentMark, Bool.or_eq_false_iff, beq_eq_false_iff_ne, beq_eq_false_iff_ne]
  constructor
  · rintro rfl
    exact absurd h (by decide)
  · rintro rfl
    exact absurd h (by decide)

def continuesField (before c : Char) : Bool :=
  !isBlank before && !isBlank c && (!isSign c || isExponentMark before)

/-- The fields of a text; blanks belong to none. -/
def fields (text : List Char) : List (List Char) :=
  (text.splitBy continuesField).filter fun field => !field.all isBlank

/-- The stretches of text that begin with a command letter. -/
def words (text : List Char) : List (List Char) := text.splitBy fun _ c => !isCommandStart c

/-- An exponent marker with no digit in front is a letter and no part of a number. -/
def strayExponent : List Char → Bool
  | [] => false
  | c :: rest => isExponentMark c || (isSign c && rest.head?.any isExponentMark)

/-- The number in a field. A malformed one is undefined, or a fault when reading strictly. -/
def readField (strict : Bool) (field : List Char) : Except PathFault Binary64 :=
  if strayExponent field then .error (.unknownCommand field)
  else if strict && !isNumeral field then .error (.malformedNumber field)
  else .ok (readNumber field)

def readToken (strict : Bool) (word : List Char) : Except PathFault Token :=
  match word.head?.bind Letter.ofChar? with
  | none => .error (.unknownCommand (word.take 16))
  | some letter => do
    let text := trim word.tail
    return ⟨letter, text, ← (fields text).mapM (readField strict)⟩

def tokenize (strict : Bool) (text : List Char) : Except PathFault (List Token) :=
  match text with
  | [] => .ok []
  | c :: _ =>
    if isCommandStart c then (words text).mapM (readToken strict)
    else .error (.noLeadingLetter (text.take 16))

/-- The malformed fields of a token that reading passes before it ends or fails. -/
def malformedFields (text : List Char) : List (List Char) :=
  ((fields text).takeWhile fun field => !strayExponent field).filter fun field => !isNumeral field

def malformedOperands : List (List Char) → List (List Char × List Char)
  | [] => []
  | word :: rest =>
    let found : List (List Char × List Char) :=
      match word.head?.bind Letter.ofChar? with
      | none => []
      | some letter =>
        let text := trim word.tail
        (malformedFields text).map fun field => (field, letter.char :: text)
    match readToken false word with
    | .ok _ => found ++ malformedOperands rest
    | .error _ => found

end TersePath
