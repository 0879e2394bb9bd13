import TersePath.Number.Rounding

namespace TersePath

-- powers are those of the core library, whatever else is imported
attribute [local instance (high)] instPowNat

/-- The number `± coefficient · 10 ^ exponent`. Zero has two signs. -/
structure Decimal where
  negative : Bool
  coefficient : Nat
  exponent : Int
deriving DecidableEq

/-- How many digits the decimal form of `n` has; zero has one. -/
def digitCount (n : Nat) : Nat := (Nat.toDigits 10 n).length

theorem digitCount_le_iff {n k : Nat} (hk : 0 < k) : digitCount n ≤ k ↔ n < 10 ^ k :=
  Nat.length_toDigits_le_iff (by decide) hk

namespace Decimal

def precision : Nat := 28

def ofInt (n : Int) : Decimal := ⟨decide (n < 0), n.natAbs, 0⟩

def signed (x : Decimal) : Int := if x.negative then -x.coefficient else x.coefficient

def alignedTo (x : Decimal) (e : Int) : Int := x.signed * 10 ^ (x.exponent - e).toNat

/-- The nearest number of at most 28 digits. -/
def rounded (x : Decimal) : Decimal :=
  let excess := digitCount x.coefficient - precision
  if excess = 0 then x
  else ⟨x.negative, roundQuotient x.coefficient (10 ^ excess), x.exponent + excess⟩

/-- Results stay below `10 ^ rangePower`. -/
def rangePower : Nat := 1000000

def inRange (x : Decimal) : Bool :=
  x.coefficient == 0 || decide (x.exponent + digitCount x.coefficient ≤ rangePower)

def neg (x : Decimal) : Decimal := { x with negative := !x.negative }

/-- A sum that vanishes is the positive zero. -/
def add (x y : Decimal) : Decimal :=
  let e := min x.exponent y.exponent
  let sum := x.alignedTo e + y.alignedTo e
  rounded ⟨decide (sum < 0), sum.natAbs, e⟩

def sub (x y : Decimal) : Decimal := x.add y.neg

def mul (x y : Decimal) : Decimal :=
  rounded ⟨x.negative ^^ y.negative, x.coefficient * y.coefficient, x.exponent + y.exponent⟩

instance : Add Decimal := ⟨add⟩
instance : Sub Decimal := ⟨sub⟩
instance : Mul Decimal := ⟨mul⟩

def floor (x : Decimal) : Int :=
  x.signed * 10 ^ x.exponent.toNat / 10 ^ (-x.exponent).toNat

def half : Decimal := ⟨false, 5, -1⟩

/-- The nearest integer, a half going up. The sum with one half is itself rounded to 28 digits. -/
def nearest (x : Decimal) : Int := (x + half).floor

end Decimal

end TersePath
