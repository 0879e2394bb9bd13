import TersePath.Fault
import TersePath.Number.Spelling

/-!
Scaling of numbers by integers. A binary number is scaled as the decimal that it is written as, so
that 1.15 times 100 is 115.
-/

namespace TersePath

/-- The nearest integer, as long as the sum with one half is in range. What is out of range itself need not
be added to. -/
def Decimal.roundHalfUp (x : Decimal) : Except Fault Int :=
  if x.inRange && (x + half).inRange then .ok x.nearest else .error .decimalOverflow

namespace Binary64

/-- The value as a decimal, zero for what is not finite. -/
def toDecimal (x : Binary64) : Decimal := x.toDecimal?.getD (Decimal.ofInt 0)

/-- How many digits stand after the point of the shortest decimal form. -/
def decimalPlaces (x : Binary64) : Nat := (-x.toDecimal.exponent).toNat

def roundScaled (scale : Int) (x : Binary64) : Binary64 :=
  match x.toDecimal? with
  | some value => (Decimal.ofInt (value * Decimal.ofInt scale).nearest).toBinary64
  | none => x

/-- `x` times an integer. What is not finite is multiplied as a binary number. -/
def timesInteger (x : Binary64) (factor : Int) : Except Fault Binary64 :=
  match x.toDecimal? with
  | some value => .ok (value * Decimal.ofInt factor).toBinary64
  | none => if (ofInt factor).isFinite then .ok (x * ofInt factor) else .error .integerTooLarge

def reciprocal (n : Int) : Except Fault Binary64 :=
  if n = 0 then .error .divisionByZero else .ok (ofRatio (decide (n < 0)) one n.natAbs)

/-- `1 / n` for an `n` that is first rounded to a number itself. -/
def reciprocalOfRounded (n : Int) : Except Fault Binary64 :=
  match ofInt n with
  | .finite negative units _ =>
    if units = 0 then .error .divisionByZero
    else .ok (ofRatio negative (one * one) units)
  | _ => .error .integerTooLarge

end Binary64

end TersePath
