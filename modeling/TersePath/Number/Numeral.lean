import TersePath.Number.Binary64
import TersePath.Number.Decimal
import TersePath.Text.Digit

namespace TersePath

-- powers are those of the core library, whatever else is imported
attribute [local instance (high)] instPowNat

namespace Numeral

def readSign : List Char → Bool × List Char
  | '-' :: rest => (true, rest)
  | '+' :: rest => (false, rest)
  | rest => (false, rest)

def readMantissa (text : List Char) : Option (List Char × List Char × List Char) :=
  let whole := text.takeWhile isDigit
  match text.dropWhile isDigit with
  | '.' :: rest =>
    let fraction := rest.takeWhile isDigit
    if whole.isEmpty && fraction.isEmpty then none
    else some (whole, fraction, rest.dropWhile isDigit)
  | rest => if whole.isEmpty then none else some (whole, [], rest)

/-- The exponent, and what follows it; a marker without digits is no exponent. -/
def readExponent (text : List Char) : Int × List Char :=
  match text with
  | [] => (0, [])
  | c :: rest =>
    let (negative, rest) := readSign rest
    let digits := rest.takeWhile isDigit
    if (c == 'e' || c == 'E') && !digits.isEmpty then
      let value : Int := digitsValue digits
      (if negative then -value else value, rest.dropWhile isDigit)
    else (0, text)

def readFront (text : List Char) : Option (Decimal × List Char) :=
  let (negative, rest) := readSign text
  match readMantissa rest with
  | none => none
  | some (whole, fraction, rest) =>
    let (exponent, rest) := readExponent rest
    some (⟨negative, digitsValue (whole ++ fraction), exponent - fraction.length⟩, rest)

def read? (text : List Char) : Option Decimal :=
  match readFront text with
  | some (value, []) => some value
  | _ => none

end Numeral

def isNumeral (text : List Char) : Bool := (Numeral.read? text).isSome

/-- The binary number nearest to a decimal one. Magnitudes far outside the range are decided by the
place of the leading digit alone. -/
def Decimal.toBinary64 (x : Decimal) : Binary64 :=
  let lead : Int := digitCount x.coefficient + x.exponent
  if x.coefficient = 0 ∨ lead < -330 then .finite x.negative 0 Binary64.zero_representable
  else if 310 < lead then .infinite x.negative
  else .ofRatio x.negative (x.coefficient * 10 ^ x.exponent.toNat * Binary64.one)
    (10 ^ (-x.exponent).toNat)

/-- The number that a field writes, undefined when the field is no literal. -/
def readNumber (text : List Char) : Binary64 :=
  match Numeral.read? text with
  | some value => value.toBinary64
  | none => .nan

end TersePath
