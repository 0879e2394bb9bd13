import TersePath.Proofs.Number.Integer
import TersePath.Proofs.Number.Nearest
import TersePath.Proofs.Picture.Coordinates

namespace TersePath

open Picture

def Binary64.shortestValue (x : Binary64) : ℚ := x.toDecimal.value

namespace Picture

/-- To the nearest integer in scaled space, a half going up. -/
def snap (scale : ℤ) (q : ℚ) : ℤ := ⌊scale * q + 1 / 2⌋

def snapPoint (scale : ℤ) (p : Point) : Point := (snap scale p.1, snap scale p.2)

/-- The number nearest to the integer, which is the integer itself up to `2 ^ 53`. -/
def snapLength (scale : ℤ) (r : ℚ) : ℚ := (Decimal.ofInt (snap scale r)).toBinary64.value

def Figure.snap (scale : ℤ) (f : Figure) : Figure :=
  f.map (fun q => Picture.snap scale q) (fun r => Picture.snap scale r)

def Place.snap (scale : ℤ) (place : Place) : Place :=
  ⟨snapPoint scale place.point, snapPoint scale place.start⟩

/-- A position that decimals of 28 digits can hold with a half added, below `2 ^ 52`. -/
structure Held (scale : ℤ) (q : ℚ) : Prop where
  digits : Digits 27 (scale * q)
  small : |scale * q| < 2 ^ 52

def HeldPoint (scale : ℤ) (p : Point) : Prop := Held scale p.1 ∧ Held scale p.2

end Picture

open Picture Binary64

lemma digits_of_integer {n : ℤ} (h : |n| < 10 ^ 28) : Digits 28 n := ⟨n, 0, h, by simp⟩

lemma digits_integer {n : ℤ} (h : |n| < 2 ^ 54) : Digits 27 (n : ℚ) :=
  ⟨n, 0, h.trans (by norm_num), by simp⟩

lemma held_of_den {scale : ℤ} {q : ℚ} (h : (10 * (scale * q)).den = 1 ∧ |scale * q| < 2 ^ 52) :
    Held scale q := by
  refine ⟨digits_of_den ⟨h.1, ?_⟩, h.2⟩
  rw [abs_mul, abs_of_pos (by norm_num)]
  linarith [h.2]

lemma snap_of_integer {scale n : ℤ} {q : ℚ} (h : scale * q = n) : snap scale q = n := by
  rw [snap, h, Int.floor_intCast_add]
  norm_num

lemma snap_small {scale : ℤ} {q : ℚ} (h : |scale * q| < 2 ^ 52) : |snap scale q| ≤ 2 ^ 52 := by
  rw [abs_lt] at h
  rw [abs_le, snap]
  constructor
  · refine Int.le_floor.mpr ?_
    push_cast
    linarith
  · refine Int.floor_le_iff.mpr ?_
    push_cast
    linarith

lemma value_scaledValue {scale : ℤ} {x : Binary64} (h : Digits 27 (scale * x.shortestValue)) :
    (scaledValue scale x).value = scale * x.shortestValue := by
  have hcomm : x.toDecimal.value * (Decimal.ofInt scale).value = scale * x.shortestValue := by
    rw [Decimal.value_ofInt, mul_comm]
    rfl
  rw [scaledValue, Decimal.value_mul (hcomm ▸ h.mono (by norm_num)), hcomm]

structure Track.At (track : Track) (scale : ℤ) (q : ℚ) : Prop where
  exact : track.exact.value = scale * q
  rounded : track.rounded.value = snap scale q
  small : |scale * q| < 2 ^ 52

lemma snap_zero (scale : ℤ) : snap scale 0 = 0 := snap_of_integer (by simp)

lemma natAbs_le_of_abs {n : ℤ} {k : ℕ} (h : |n| ≤ 2 ^ k) : n.natAbs ≤ 2 ^ k := by
  rw [Int.abs_eq_natAbs] at h
  exact_mod_cast h

lemma scaleOperand_step {scale : ℤ} {pen : Pen} (absolute : Bool) {axis : Axis} {x : Binary64}
    {q : ℚ} (hpen : (pen.get axis).At scale q) (hx : Digits 27 (scale * x.shortestValue))
    (hend : Digits 27 (scale * (basis absolute q + x.shortestValue)))
    (hstep : |snap scale (basis absolute q + x.shortestValue) - snap scale (basis absolute q)| ≤
      2 ^ 53) :
    (scaleOperand scale pen absolute (.coordinate axis) x).Is
      (snap scale (basis absolute q + x.shortestValue) - snap scale (basis absolute q) : ℤ) := by
  have hvalue := value_scaledValue hx
  cases absolute with
  | true =>
    simp only [basis, if_true, zero_add, snap_zero, sub_zero] at hstep ⊢
    have hnearest : (scaledValue scale x).nearest = snap scale x.shortestValue := by
      rw [Decimal.nearest_eq (hvalue ▸ hx), hvalue, snap]
    simp only [scaleOperand, if_true, hnearest]
    exact Decimal.toBinary64_integer (Decimal.value_ofInt _) (natAbs_le_of_abs hstep)
  | false =>
    simp only [basis, Bool.false_eq_true, if_false] at hend hstep ⊢
    have hsum : ((pen.get axis).exact + scaledValue scale x).value =
        scale * (q + x.shortestValue) := by
      have hdistrib : (pen.get axis).exact.value + (scaledValue scale x).value =
          scale * (q + x.shortestValue) := by rw [hpen.exact, hvalue, mul_add]
      rw [Decimal.value_add (hdistrib ▸ hend.mono (by norm_num)), hdistrib]
    have hnearest : ((pen.get axis).exact + scaledValue scale x).nearest =
        snap scale (q + x.shortestValue) := by
      rw [Decimal.nearest_eq (hsum ▸ hend), hsum, snap]
    simp only [scaleOperand, Bool.false_eq_true, if_false, hnearest]
    refine Decimal.toBinary64_integer ?_ (natAbs_le_of_abs hstep)
    have hsub : (Decimal.ofInt (snap scale (q + x.shortestValue))).value -
        (pen.get axis).rounded.value = (snap scale (q + x.shortestValue) - snap scale q : ℤ) := by
      rw [Decimal.value_ofInt, hpen.rounded]
      push_cast
      rfl
    rw [Decimal.value_sub ?_, hsub]
    rw [hsub]
    exact digits_of_integer (hstep.trans_lt (by norm_num))

lemma scaleOperand_coordinate {scale : ℤ} {pen : Pen} {absolute : Bool} {axis : Axis} {x : Binary64}
    {q : ℚ} (hpen : (pen.get axis).At scale q) (hx : Digits 27 (scale * x.shortestValue))
    (hheld : Held scale (basis absolute q + x.shortestValue)) :
    (scaleOperand scale pen absolute (.coordinate axis) x).Is
      (snap scale (basis absolute q + x.shortestValue) - snap scale (basis absolute q) : ℤ) := by
  have hend := snap_small hheld.small
  have hstart : |snap scale (basis absolute q)| ≤ 2 ^ 52 := by
    cases absolute with
    | true => simp [basis, snap_zero]
    | false => exact snap_small hpen.small
  refine scaleOperand_step _ hpen hx hheld.digits ?_
  rw [abs_le] at hend hstart ⊢
  constructor <;> omega

lemma truncate_of_integer {x : Binary64} {n : ℤ} (hx : x.Is n) : x.truncate? = some n := by
  obtain ⟨s, u, hu, rfl⟩ := exists_finite hx.1
  obtain ⟨hunits, hsign⟩ := units_of_integer hx.2
  have hdiv : u / one = n.natAbs := by rw [hunits, Nat.mul_div_cancel _ Binary64.one_pos]
  simp only [truncate?, hdiv]
  exact congrArg some hsign

lemma scaleOperand_length {scale : ℤ} {pen : Pen} {absolute : Bool} {r : Binary64}
    (hr : Digits 27 (scale * r.shortestValue)) : scaleOperand scale pen absolute .length r =
      (Decimal.ofInt (snap scale r.shortestValue)).toBinary64 := by
  have hvalue := value_scaledValue hr
  have hnearest : (scaledValue scale r).nearest = snap scale r.shortestValue := by
    rw [Decimal.nearest_eq (hvalue ▸ hr), hvalue, snap]
  simp only [scaleOperand, hnearest]

lemma finite_length {n : ℤ} (h : |n| ≤ 2 ^ 53) : (Decimal.ofInt n).toBinary64.isFinite :=
  (Decimal.toBinary64_integer (Decimal.value_ofInt n) (natAbs_le_of_abs h)).1

lemma scaleOperand_unscaled (scale : ℤ) (pen : Pen) (absolute : Bool) (x : Binary64) :
    scaleOperand scale pen absolute .unscaled x = x := rfl

lemma follow_axis {scale : ℤ} {pen : Pen} (before after : Command) {axis : Axis}
    {x result : Binary64} {q : ℚ} (hpen : (pen.get axis).At scale q)
    (hx : Digits 27 (scale * x.shortestValue))
    (hheld : Held scale (basis before.absolute q + x.shortestValue))
    (hbefore : before.finish? axis = some x) (hafter : after.finish? axis = some result)
    (hresult : result.Is (snap scale (basis before.absolute q + x.shortestValue) -
      snap scale (basis before.absolute q) : ℤ)) :
    ∃ track : Track, pen.follow scale before after axis = .ok (pen.set axis track) ∧
      track.At scale (basis before.absolute q + x.shortestValue) := by
  have hvalue := value_scaledValue hx
  have hend := snap_small hheld.small
  have hstep : ∀ n : ℤ, (Decimal.ofInt n).value = n := Decimal.value_ofInt
  simp only [Pen.follow, hbefore, hafter, truncate_of_integer hresult]
  cases habsolute : before.absolute with
  | true =>
    rw [habsolute] at hheld hend
    simp only [basis, if_true, zero_add, snap_zero, sub_zero] at hheld hend ⊢
    exact ⟨_, rfl, hvalue, hstep _, hheld.small⟩
  | false =>
    rw [habsolute] at hheld hend
    simp only [basis, Bool.false_eq_true, if_false] at hheld hend ⊢
    refine ⟨_, rfl, ?_, ?_, hheld.small⟩
    · have hdistrib : (pen.get axis).exact.value + (scaledValue scale x).value =
          scale * (q + x.shortestValue) := by rw [hpen.exact, hvalue, mul_add]
      rw [Decimal.value_add (hdistrib ▸ hheld.digits.mono (by norm_num)), hdistrib]
    · have hsum : (pen.get axis).rounded.value +
          (Decimal.ofInt (snap scale (q + x.shortestValue) - snap scale q)).value =
            (snap scale (q + x.shortestValue) : ℤ) := by
        rw [hpen.rounded, hstep]
        push_cast
        ring
      rw [Decimal.value_add ?_, hsum]
      rw [hsum]
      exact digits_of_integer (hend.trans_lt (by norm_num))

structure Pen.At (pen : Pen) (scale : ℤ) (place : Place) : Prop where
  x : pen.x.At scale place.point.1
  y : pen.y.At scale place.point.2
  startX : pen.startX.At scale place.start.1
  startY : pen.startY.At scale place.start.2

end TersePath
