import TersePath.Number.Shortest

/-!
Texts of binary numbers. A spelling is the shortest one that path data admit: positional, with no
zero before the point and no point after an integer. A literal always shows that it is no integer, and
very small and very large numbers are written with an exponent.
-/

namespace TersePath

def Decimal.places (x : Decimal) : List Char × List Char :=
  let digits := Nat.toDigits 10 x.coefficient
  if 0 ≤ x.exponent then (digits ++ List.replicate x.exponent.toNat '0', [])
  else
    let count := (-x.exponent).toNat
    if count < digits.length then (digits.take (digits.length - count), digits.drop (digits.length - count))
    else ([], List.replicate (count - digits.length) '0' ++ digits)

def signText (negative : Bool) : List Char := if negative then ['-'] else []

def integerText (n : Int) : List Char := signText (decide (n < 0)) ++ Nat.toDigits 10 n.natAbs

namespace Binary64

def spelling : Binary64 → List Char
  | .nan => ['N', 'a', 'N']
  | .infinite negative => signText negative ++ ['I', 'n', 'f', 'i', 'n', 'i', 't', 'y']
  | .finite negative units h =>
    if units % one = 0 then integerText (signedUnits negative (units / one))
    else
      let (whole, fraction) := (shortest negative units h).places
      signText negative ++ whole ++ '.' :: fraction

/-- The part of a literal after its sign: positional from `0.0001` up to sixteen digits before the
point, with an exponent of at least two digits beyond. -/
def unsignedLiteral (x : Decimal) : List Char :=
  let digits := Nat.toDigits 10 x.coefficient
  let point : Int := digits.length + x.exponent
  if x.coefficient = 0 || (-4 < point && point ≤ 16) then
    let (whole, fraction) := x.places
    (if whole.isEmpty then ['0'] else whole) ++ '.' :: (if fraction.isEmpty then ['0'] else fraction)
  else
    let exponent := point - 1
    let size := Nat.toDigits 10 exponent.natAbs
    digits.take 1 ++ (if digits.length = 1 then [] else '.' :: digits.drop 1) ++
      'e' :: (if exponent < 0 then '-' else '+') :: (List.replicate (2 - size.length) '0' ++ size)

def literal : Binary64 → List Char
  | .nan => ['n', 'a', 'n']
  | .infinite negative => signText negative ++ ['i', 'n', 'f']
  | .finite negative units h => signText negative ++ unsignedLiteral (shortest negative units h)

def ofLiteral? (text : List Char) : Option Binary64 :=
  if text == ['n', 'a', 'n'] then some .nan
  else if text == ['i', 'n', 'f'] then some (.infinite false)
  else if text == ['-', 'i', 'n', 'f'] then some (.infinite true)
  else (Numeral.read? text).map Decimal.toBinary64

end Binary64

end TersePath
