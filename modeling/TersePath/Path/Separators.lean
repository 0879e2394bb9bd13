import TersePath.Text.Blank
import TersePath.Text.Digit
import TersePath.Path.Letter

/-!
Separators in path text. Commas count as spaces, two fractions that touch are set apart, and blanks
before a letter or a minus sign are dropped, for those begin a new piece anyway.
-/

namespace TersePath

inductive NumberPart where
  | whole
  | point
  | fraction
deriving DecidableEq

def startsWithDigit : List Char → Bool
  | [] => false
  | c :: _ => isDigit c

/-- A space between a fraction and a point right after it that begins another fraction. -/
def partFractions : NumberPart → List Char → List Char
  | _, [] => []
  | part, c :: rest =>
    if c = '.' then
      if part = .fraction ∧ startsWithDigit rest then ' ' :: '.' :: partFractions .point rest
      else '.' :: partFractions .point rest
    else if isDigit c ∧ part ≠ .whole then c :: partFractions .fraction rest
    else c :: partFractions .whole rest

def dropBlanksBefore (begins : Char → Bool) (text : List Char) : List Char :=
  text.foldr (fun c rest => if isBlank c && rest.head?.any begins then rest else c :: rest) []

theorem dropBlanksBefore_cons (begins : Char → Bool) (c : Char) (text : List Char) :
    dropBlanksBefore begins (c :: text) =
      if isBlank c && (dropBlanksBefore begins text).head?.any begins then dropBlanksBefore begins text
      else c :: dropBlanksBefore begins text :=
  rfl

/-- Path text with plain separators, which can be split into commands and fields. -/
def normalizeSeparators (text : List Char) : List Char :=
  let spaced := text.map fun c => if c = ',' then ' ' else c
  trim (dropBlanksBefore (· == '-') (dropBlanksBefore isCommandStart (partFractions .whole spaced)))

end TersePath
