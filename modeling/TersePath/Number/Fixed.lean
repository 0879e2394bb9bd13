import TersePath.Number.Spelling

/-!
Texts of a fixed precision: with a number of digits after the point, or with a number of significant
digits. The exact value is rounded once, a tie going to the even digit.
-/

namespace TersePath

-- powers are those of the core library, whatever else is imported
attribute [local instance (high)] instPowNat

namespace Binary64

def textWith (write : Bool → Nat → List Char) : Binary64 → List Char
  | .nan => ['n', 'a', 'n']
  | .infinite negative => signText negative ++ ['i', 'n', 'f']
  | .finite negative units _ => signText negative ++ write negative units

def fixedText (count : Nat) (x : Binary64) : List Char :=
  x.textWith fun _ units =>
    let digits := Nat.toDigits 10 (roundQuotient (units * 10 ^ count) one)
    let filled := List.replicate (count + 1 - digits.length) '0' ++ digits
    let whole := filled.take (filled.length - count)
    if count = 0 then whole else whole ++ '.' :: filled.drop (filled.length - count)

def dropTrailingZeros (digits : List Char) : List Char :=
  digits.foldr (fun c rest => if c == '0' && rest.isEmpty then [] else c :: rest) []

def pointText (digits : List Char) : List Char := if digits.isEmpty then [] else '.' :: digits

/-- The text with at most `count` significant digits: positional for leading powers from `-4` up to
`count - 1`, with an exponent beyond, and without zeros at the end of a fraction. -/
def significantText (count : Nat) (x : Binary64) : List Char :=
  x.textWith fun _ units =>
    if units = 0 then ['0']
    else
      let lead := leadingPower units
      let step := lead + 1 - count
      let rounded := roundQuotient (units * 10 ^ (-step).toNat) (one * 10 ^ step.toNat)
      let carried := 10 ^ count ≤ rounded
      let power := if carried then lead + 1 else lead
      let digits := Nat.toDigits 10 (if carried then rounded / 10 else rounded)
      if power < -4 || (count : Int) ≤ power then
        let size := Nat.toDigits 10 power.natAbs
        digits.take 1 ++ pointText (dropTrailingZeros (digits.drop 1)) ++
          'e' :: (if power < 0 then '-' else '+') :: (List.replicate (2 - size.length) '0' ++ size)
      else if power < 0 then
        '0' :: pointText (List.replicate (-power - 1).toNat '0' ++ dropTrailingZeros digits)
      else
        digits.take (power.toNat + 1) ++ pointText (dropTrailingZeros (digits.drop (power.toNat + 1)))

end Binary64

end TersePath
