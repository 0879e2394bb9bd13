import TersePath.Number.Rounding

/-!
Binary floating numbers of 53 significant bits. A finite number is a sign and a count of the
smallest positive number, `2 ^ -1074`, so that all arithmetic is exact arithmetic on counts followed
by one rounding. Main statements: what rounding returns lies on the grid of representable counts, and
a count that already lies there is not changed by it.
-/

namespace TersePath

-- powers are those of the core library, whatever else is imported
attribute [local instance (high)] instPowNat

namespace Binary64

/-- The distance between neighbouring numbers at a magnitude of `n` units. -/
def spacing (n : Nat) : Nat := 2 ^ (n.log2 - 52)

/-- How many binary places the smallest positive number has. -/
def places : Nat := 1074

/-- How many binary digits stand before the point of the largest finite number. -/
def range : Nat := 1024

def one : Nat := 2 ^ places

/-- The first magnitude, counted in units, that is no finite number. -/
def limit : Nat := 2 ^ (range + places)

theorem one_pos : 0 < one := Nat.two_pow_pos _

theorem limit_pos : 0 < limit := Nat.two_pow_pos _

def Representable (n : Nat) : Prop := spacing n ∣ n ∧ n < limit

instance (n : Nat) : Decidable (Representable n) :=
  decidable_of_iff (n % spacing n = 0 ∧ n < limit) (by
    simp only [Representable, Nat.dvd_iff_mod_eq_zero])

theorem zero_representable : Representable 0 := ⟨Nat.dvd_zero _, limit_pos⟩

theorem spacing_pos (n : Nat) : 0 < spacing n := Nat.two_pow_pos _

theorem lt_spacing_mul (n : Nat) : n < spacing n * 2 ^ (53 : Nat) := by
  have h : n < 2 ^ (n.log2 + 1) := Nat.lt_log2_self
  have h' : 2 ^ (n.log2 + 1) ≤ 2 ^ ((n.log2 - 52) + 53) :=
    Nat.pow_le_pow_right (by omega) (by omega)
  rw [spacing, ← Nat.pow_add]
  omega

theorem spacing_dvd_of_dvd {e n : Nat} (h : 2 ^ e ∣ n) (hn : n ≤ 2 ^ (53 + e)) : spacing n ∣ n := by
  rcases Nat.eq_or_lt_of_le hn with rfl | hlt
  · rw [spacing, Nat.log2_two_pow]
    exact Nat.pow_dvd_pow 2 (by omega)
  · refine Nat.dvd_trans (Nat.pow_dvd_pow 2 ?_) h
    rcases Nat.eq_zero_or_pos n with rfl | hpos
    · simp
    · have := (Nat.log2_lt (by omega)).mpr hlt
      omega

/-- `num / den` on the grid of numbers, ties to even; a result may exceed the largest number. -/
def roundUnits (num den : Nat) : Nat :=
  let step := spacing (num / den)
  roundQuotient num (den * step) * step

theorem roundUnits_le (num den : Nat) :
    roundUnits num den ≤ 2 ^ (53 + ((num / den).log2 - 52)) := by
  have hq := lt_spacing_mul (num / den)
  have hs := spacing_pos (num / den)
  have hk := roundQuotient_le num (den * spacing (num / den))
  rw [← Nat.div_div_eq_div_mul] at hk
  have hd : num / den / spacing (num / den) < 2 ^ 53 := by
    rw [Nat.div_lt_iff_lt_mul hs, Nat.mul_comm]
    exact hq
  rw [Nat.pow_add]
  exact Nat.mul_le_mul_right _ (by omega)

theorem spacing_roundUnits (num den : Nat) : spacing (roundUnits num den) ∣ roundUnits num den :=
  spacing_dvd_of_dvd (Nat.dvd_mul_left _ _) (roundUnits_le num den)

theorem roundUnits_of_dvd {n : Nat} (h : spacing n ∣ n) : roundUnits n 1 = n := by
  obtain ⟨k, hk⟩ := h
  have hs := spacing_pos n
  simp only [roundUnits, Nat.div_one, Nat.one_mul]
  generalize spacing n = s at *
  subst hk
  rw [Nat.mul_comm s k, roundQuotient_mul k s hs]

end Binary64

/-- A binary floating number: finite, infinite or undefined. Zero has two signs. -/
inductive Binary64 where
  | finite (negative : Bool) (units : Nat) (representable : Binary64.Representable units)
  | infinite (negative : Bool)
  | nan
deriving DecidableEq

namespace Binary64

def ofRatio (negative : Bool) (num den : Nat) : Binary64 :=
  if h : roundUnits num den < limit then
    .finite negative (roundUnits num den) ⟨spacing_roundUnits num den, h⟩
  else .infinite negative

theorem ofRatio_units (negative : Bool) {n : Nat} (h : Representable n) :
    ofRatio negative n 1 = .finite negative n h := by
  have hn := roundUnits_of_dvd h.1
  simp [ofRatio, hn, h.2]

def zero : Binary64 := .finite false 0 zero_representable

instance : Inhabited Binary64 := ⟨zero⟩

/-- The number nearest to an integer, infinite beyond the range. -/
def ofInt (n : Int) : Binary64 := ofRatio (decide (n < 0)) (n.natAbs * one) 1

def isFinite : Binary64 → Bool
  | .finite .. => true
  | _ => false

def isNan : Binary64 → Bool
  | .nan => true
  | _ => false

def truncate? : Binary64 → Option Int
  | .finite negative n _ => some (if negative then -(n / one : Nat) else (n / one : Nat))
  | _ => none

def isInteger : Binary64 → Bool
  | .finite _ n _ => n % one == 0
  | _ => false

def signedUnits (negative : Bool) (n : Nat) : Int := if negative then -n else n

def neg : Binary64 → Binary64
  | .finite negative n h => .finite (!negative) n h
  | .infinite negative => .infinite (!negative)
  | .nan => .nan

/-- A sum of opposite numbers is the positive zero. -/
def add : Binary64 → Binary64 → Binary64
  | .nan, _ => .nan
  | _, .nan => .nan
  | .infinite s, .infinite t => if s = t then .infinite s else .nan
  | .infinite s, .finite .. => .infinite s
  | .finite .., .infinite t => .infinite t
  | .finite s m _, .finite t n _ =>
    if s = t then ofRatio s (m + n) 1
    else if n < m then ofRatio s (m - n) 1
    else if m < n then ofRatio t (n - m) 1
    else zero

def sub (x y : Binary64) : Binary64 := x.add y.neg

def mul : Binary64 → Binary64 → Binary64
  | .nan, _ => .nan
  | _, .nan => .nan
  | .infinite s, .infinite t => .infinite (s ^^ t)
  | .infinite s, .finite t n _ => if n = 0 then .nan else .infinite (s ^^ t)
  | .finite s m _, .infinite t => if m = 0 then .nan else .infinite (s ^^ t)
  | .finite s m _, .finite t n _ => ofRatio (s ^^ t) (m * n) one

instance : Add Binary64 := ⟨add⟩
instance : Sub Binary64 := ⟨sub⟩
instance : Mul Binary64 := ⟨mul⟩
instance : Neg Binary64 := ⟨neg⟩

def less : Binary64 → Binary64 → Bool
  | .nan, _ => false
  | _, .nan => false
  | .infinite s, .infinite t => s && !t
  | .infinite s, .finite .. => s
  | .finite .., .infinite t => !t
  | .finite s m _, .finite t n _ => decide (signedUnits s m < signedUnits t n)

/-- Equality of values: both zeros are equal, an undefined number equals nothing. -/
def equals : Binary64 → Binary64 → Bool
  | .infinite s, .infinite t => s == t
  | .finite s m _, .finite t n _ => decide (signedUnits s m = signedUnits t n)
  | _, _ => false

def atMost (x y : Binary64) : Bool := x.less y || x.equals y

def isZero (x : Binary64) : Bool := x.equals zero

def isNegative : Binary64 → Bool
  | .finite negative .. => negative
  | .infinite negative => negative
  | .nan => false

def toBits : Binary64 → UInt64
  | .nan => 0x7ff8000000000000
  | .infinite negative => if negative then 0xfff0000000000000 else 0x7ff0000000000000
  | .finite negative n _ =>
    let shift := n.log2 - 52
    let magnitude := if n < 2 ^ (52 : Nat) then n else (shift + 1) * 2 ^ (52 : Nat) + (n / 2 ^ shift - 2 ^ (52 : Nat))
    (if negative then 0x8000000000000000 else 0) + UInt64.ofNat magnitude

def ofBits (bits : UInt64) : Binary64 :=
  let negative := 2 ^ (63 : Nat) ≤ bits.toNat
  let exponent := bits.toNat / 2 ^ (52 : Nat) % 2 ^ (11 : Nat)
  let fraction := bits.toNat % 2 ^ (52 : Nat)
  if exponent = 2 ^ (11 : Nat) - 1 then if fraction = 0 then .infinite negative else .nan
  else if exponent = 0 then ofRatio negative fraction 1
  else ofRatio negative ((2 ^ (52 : Nat) + fraction) * 2 ^ (exponent - 1)) 1

def toFloat (x : Binary64) : Float := Float.ofBits x.toBits

def ofFloat (x : Float) : Binary64 := ofBits x.toBits

end Binary64

end TersePath
