import TersePath.Number.Numeral

namespace TersePath

-- powers are those of the core library, whatever else is imported
attribute [local instance (high)] instPowNat

namespace Binary64

def leadingPower (units : Nat) : Int :=
  let guess : Int := ((units.log2 : Int) - places) * 30103 / 100000
  if units * 10 ^ (-(guess + 1)).toNat < one * 10 ^ (guess + 1).toNat then guess else guess + 1

def stripZeros (negative : Bool) : Nat → Nat → Int → Decimal
  | 0, coefficient, exponent => ⟨negative, coefficient, exponent⟩
  | fuel + 1, coefficient, exponent =>
    if coefficient % 10 = 0 then stripZeros negative fuel (coefficient / 10) (exponent + 1)
    else ⟨negative, coefficient, exponent⟩

/-- The candidates with steps of `10 ^ e`, the nearer first; of two equally near the even one. -/
def neighbours (units : Nat) (e : Int) : List Nat :=
  let num := units * 10 ^ (-e).toNat
  let den := one * 10 ^ e.toNat
  let near := roundQuotient num den
  [near, if near = num / den then near + 1 else num / den]

def readsBack (x : Binary64) (negative : Bool) (e : Int) (coefficient : Nat) : Bool :=
  decide ((Decimal.mk negative coefficient e).toBinary64 = x)

/-- The first form that reads back, tried with ever smaller steps; the exact value after `fuel`
of them. -/
def searchShortest (x : Binary64) (negative : Bool) (units : Nat) : Nat → Int → Decimal
  | 0, _ => ⟨negative, units * 5 ^ places, -places⟩
  | fuel + 1, e =>
    match (neighbours units e).find? (readsBack x negative e) with
    | some coefficient => ⟨negative, coefficient, e⟩
    | none => searchShortest x negative units fuel (e - 1)

/-- The shortest decimal that reads back as a finite number, without zeros at its end. -/
def shortest (negative : Bool) (units : Nat) (h : Representable units) : Decimal :=
  if units = 0 then ⟨negative, 0, 0⟩
  else
    let x := searchShortest (.finite negative units h) negative units 17 (leadingPower units)
    stripZeros negative (digitCount x.coefficient) x.coefficient x.exponent

def toDecimal? : Binary64 → Option Decimal
  | .finite negative units h => some (shortest negative units h)
  | _ => none

end Binary64

end TersePath
