import TersePath.Proofs.Path.Head
import TersePath.Proofs.Picture.Scale

/-! Control points that are not named, in scaled space. A smooth curve takes its first control point from
the curve before it, reflected in the pen, and both are rounded. Each reflection in a row adds up to a whole
unit to the half unit that a named point may be off, so that chains of smooth quadratics drift. -/

namespace TersePath

open Picture Binary64

namespace Picture

/-- A control point that a smooth figure takes without naming it, and how many reflections lead there from a
point that is named, or from the pen. -/
structure Implied where
  kind : Kind
  reflections : ℕ
  point : Point
deriving DecidableEq

namespace Hand

/-- How many reflections lead to the first control point of a figure, if so many led to that of the figure
before it. -/
def reflections (hand : Hand) (count : ℕ) : Figure → ℕ
  | .cubic none _ _ =>
    match hand.control with
    | .cubic _ => 1
    | _ => 0
  | .quadratic none _ =>
    match hand.control with
    | .quadratic _ => count + 1
    | _ => 0
  | _ => 0

def implied? (hand : Hand) (count : ℕ) : Figure → Option Implied
  | .cubic none second p =>
    some ⟨.smoothCubic, hand.reflections count (.cubic none second p), hand.cubicLead⟩
  | .quadratic none p =>
    some ⟨.smoothQuadratic, hand.reflections count (.quadratic none p), hand.quadraticLead⟩
  | _ => none

def impliedFrom (hand : Hand) (count : ℕ) : List Figure → List Implied
  | [] => []
  | figure :: rest =>
    (hand.implied? count figure).toList ++
      (hand.follow figure).impliedFrom (hand.reflections count figure) rest

end Hand

def implied (figures : List Figure) : List Implied := Hand.impliedFrom {} 0 figures

/-- On each axis a point in scaled space is at most this far from where an exact one is scaled to. -/
def Within (scale : ℤ) (slack : ℚ) (exact rounded : Point) : Prop :=
  |rounded.1 - scale * exact.1| ≤ slack ∧ |rounded.2 - scale * exact.2| ≤ slack

structure Drifts (scale : ℤ) (exact rounded : Implied) : Prop where
  kind : rounded.kind = exact.kind
  reflections : rounded.reflections = exact.reflections
  cubic : exact.kind = .smoothCubic → exact.reflections ≤ 1
  within : Within scale (exact.reflections + 1 / 2) exact.point rounded.point

section Step

variable {scale : ℤ} {count : ℕ} {exact rounded : Hand} {length : ℚ → ℚ}

lemma abs_snap_sub (scale : ℤ) (q : ℚ) : |(snap scale q : ℚ) - scale * q| ≤ 1 / 2 := by
  have hlow := Int.sub_one_lt_floor ((scale : ℚ) * q + 1 / 2)
  have hhigh := Int.floor_le ((scale : ℚ) * q + 1 / 2)
  rw [snap, abs_le]
  constructor <;> linarith

lemma within_snap (scale : ℤ) (p : Point) : Within scale (1 / 2) p (snapPoint scale p) :=
  ⟨abs_snap_sub scale p.1, abs_snap_sub scale p.2⟩

/-- A reflection doubles how far the pen may be off and adds how far the control point may be. -/
lemma abs_reflect_sub {s c p c' p' a b : ℚ} (hc : |c' - s * c| ≤ a) (hp : |p' - s * p| ≤ b) :
    |c' + (c' - p') - s * (c + (c - p))| ≤ 2 * a + b := by
  rw [abs_le] at hc hp ⊢
  constructor <;> linarith

lemma Within.reflect {slack : ℚ} {center p center' p' : Point} (hcenter : Within scale (1 / 2) center center')
    (h : Within scale slack p p') :
    Within scale (1 + slack) (reflect center p) (reflect center' p') := by
  obtain ⟨hx, hy⟩ := hcenter
  have hslack : 2 * (1 / 2) + slack = 1 + slack := by ring
  exact ⟨hslack ▸ abs_reflect_sub hx h.1, hslack ▸ abs_reflect_sub hy h.2⟩

inductive Control.Within (scale : ℤ) (count : ℕ) : Control → Control → Prop
  | none : Within scale count .none .none
  | cubic {p p' : Point} (h : Picture.Within scale (1 / 2) p p') : Within scale count (.cubic p) (.cubic p')
  | quadratic {p p' : Point} (h : Picture.Within scale (count + 1 / 2) p p') :
    Within scale count (.quadratic p) (.quadratic p')

structure Tracks (scale : ℤ) (count : ℕ) (exact rounded : Hand) : Prop where
  place : rounded.toPlace = exact.toPlace.snap scale
  control : Control.Within scale count exact.control rounded.control

lemma Tracks.point (h : Tracks scale count exact rounded) :
    Within scale (1 / 2) exact.point rounded.point := by
  have hpoint : rounded.point = snapPoint scale exact.point := congrArg Place.point h.place
  rw [hpoint]
  exact within_snap scale exact.point

lemma Tracks.reflections (h : Tracks scale count exact rounded) (length : ℚ → ℚ) (f : Figure) :
    rounded.reflections count (f.map (fun q => snap scale q) length) = exact.reflections count f := by
  obtain ⟨-, hcontrol⟩ := h
  cases f with
  | cubic first second p | quadratic first p =>
    cases first with
    | some _ => rfl
    | none =>
      simp only [Figure.map, Option.map_none, Hand.reflections]
      generalize exact.control = control, rounded.control = control' at hcontrol ⊢
      cases hcontrol <;> rfl
  | _ => rfl

lemma Tracks.cubicLead (h : Tracks scale count exact rounded) (second p : Point) :
    Within scale (exact.reflections count (.cubic none second p) + 1 / 2) exact.cubicLead
      rounded.cubicLead := by
  have hpoint := h.point
  obtain ⟨-, hcontrol⟩ := h
  simp only [Hand.reflections, Hand.cubicLead]
  generalize exact.control = control, rounded.control = control' at hcontrol ⊢
  cases hcontrol with
  | cubic h => simpa using hpoint.reflect h
  | none | quadratic => simpa using hpoint

lemma Tracks.quadraticLead (h : Tracks scale count exact rounded) (p : Point) :
    Within scale (exact.reflections count (.quadratic none p) + 1 / 2) exact.quadraticLead
      rounded.quadraticLead := by
  have hpoint := h.point
  obtain ⟨-, hcontrol⟩ := h
  simp only [Hand.reflections, Hand.quadraticLead]
  generalize exact.control = control, rounded.control = control' at hcontrol ⊢
  cases hcontrol with
  | quadratic h =>
    have hsum : (1 : ℚ) + (count + 1 / 2) = ((count + 1 : ℕ) : ℚ) + 1 / 2 := by
      push_cast
      ring
    exact hsum ▸ hpoint.reflect h
  | none | cubic => simpa using hpoint

lemma Tracks.follow (h : Tracks scale count exact rounded) (f : Figure) :
    Tracks scale (exact.reflections count f) (exact.follow f)
      (rounded.follow (f.map (fun q => snap scale q) length)) := by
  refine ⟨?_, ?_⟩
  · simp only [Hand.follow]
    rw [h.place, snap_after]
  · cases f with
    | cubic first second p => exact .cubic (within_snap scale second)
    | quadratic control p =>
      cases control with
      | some control =>
        refine .quadratic ?_
        have hnamed : exact.reflections count (.quadratic (some control) p) = 0 := rfl
        rw [hnamed, Nat.cast_zero, zero_add]
        exact within_snap scale control
      | none => exact .quadratic (h.quadraticLead p)
    | _ => exact .none

lemma Tracks.implied? (h : Tracks scale count exact rounded) (f : Figure) :
    List.Forall₂ (Drifts scale) (exact.implied? count f).toList
      (rounded.implied? count (f.map (fun q => snap scale q) length)).toList := by
  have hreflections := h.reflections length f
  cases f with
  | cubic first second p =>
    cases first with
    | some _ => exact .nil
    | none =>
      refine .cons ⟨rfl, hreflections, fun _ => ?_, h.cubicLead second p⟩ .nil
      simp only [Hand.reflections]
      split <;> omega
  | quadratic control p =>
    cases control with
    | some _ => exact .nil
    | none => exact .cons ⟨rfl, hreflections, fun hk => (by cases hk), h.quadraticLead p⟩ .nil
  | _ => exact .nil

/-- Along a path every implied control point drifts by its number of reflections at most. -/
lemma Tracks.impliedFrom (h : Tracks scale count exact rounded) (figures : List Figure) :
    List.Forall₂ (Drifts scale) (exact.impliedFrom count figures)
      (rounded.impliedFrom count (figures.map (Figure.map (fun q => snap scale q) length))) := by
  induction figures generalizing count exact rounded with
  | nil => exact .nil
  | cons f rest ih =>
    rw [List.map_cons, Hand.impliedFrom, Hand.impliedFrom, h.reflections length f]
    exact List.rel_append (h.implied? f) (ih (h.follow f))

end Step

lemma tracks_origin (scale : ℤ) : Tracks scale 0 {} {} := ⟨(snap_origin scale).symm, .none⟩

/-- The control point of a smooth cubic is off by 3/2 at most, and so is that of a smooth quadratic right
after one that names its control point; each further reflection adds up to one unit. -/
theorem implied_applyScale {scale : ℤ} {commands : List Command} (hproper : ∀ c ∈ commands, c.Proper)
    (hvalues : ∀ c ∈ commands, ∀ x ∈ c.scaledOperands, Digits 27 (scale * x.shortestValue))
    (hpoints : ∀ f ∈ figures shortestValue {} commands, ∀ p ∈ f.points, HeldPoint scale p) :
    ∃ scaled, applyScale scale commands = (scaled, none) ∧
      scaled.map Command.letter = commands.map Command.letter ∧
      List.Forall₂ (Drifts scale) (implied (figures shortestValue {} commands))
        (implied (figures value {} scaled)) := by
  obtain ⟨scaled, hscaled, hsame, hfigures, -⟩ :=
    exists_scaleFrom (snapLength scale) (pen_at_origin scale) hproper hvalues hpoints fun _ _ _ _ => rfl
  rw [snap_origin] at hfigures
  refine ⟨scaled, hscaled, letters_of_same hsame, ?_⟩
  rw [hfigures]
  exact (tracks_origin scale).impliedFrom _

end Picture

namespace Example

def thousandths (n : ℤ) : Binary64 := (⟨decide (n < 0), n.natAbs, -3⟩ : Decimal).toBinary64

def waves : List Command :=
  let n := thousandths
  [ { letter := ⟨.move, true⟩, operands := [n 0, n 0] },
    { letter := ⟨.quadratic, true⟩, operands := [n 105, n 100, n 204, n 0] },
    { letter := ⟨.smoothQuadratic, true⟩, operands := [n 405, n 0] },
    { letter := ⟨.smoothQuadratic, true⟩, operands := [n 604, n 0] } ]

lemma figures_waves : figures shortestValue {} waves = [.move (0, 0),
    .quadratic (some (21 / 200, 1 / 10)) (51 / 250, 0), .quadratic none (81 / 200, 0),
    .quadratic none (151 / 250, 0)] := by decide +kernel

lemma digits_waves : ∀ c ∈ waves, ∀ x ∈ c.scaledOperands, Digits 27 ((100 : ℤ) * x.shortestValue) := by
  have hden : ∀ c ∈ waves, ∀ x ∈ c.scaledOperands,
      (10 * ((100 : ℤ) * x.shortestValue)).den = 1 ∧ |10 * ((100 : ℤ) * x.shortestValue)| < 10 ^ 27 := by
    decide +kernel
  exact fun c hc x hx => digits_of_den (hden c hc x hx)

lemma held_waves : ∀ f ∈ figures shortestValue {} waves, ∀ p ∈ f.points, HeldPoint (100 : ℤ) p := by
  have hden : ∀ f ∈ figures shortestValue {} waves, ∀ p ∈ f.points,
      ((10 * ((100 : ℤ) * p.1)).den = 1 ∧ |(100 : ℤ) * p.1| < 2 ^ 52) ∧
        (10 * ((100 : ℤ) * p.2)).den = 1 ∧ |(100 : ℤ) * p.2| < 2 ^ 52 := by decide +kernel
  exact fun f hf p hp => ⟨held_of_den (hden f hf p hp).1, held_of_den (hden f hf p hp).2⟩

end Example

namespace Picture

theorem implied_applyScale_waves : ∃ scaled, applyScale 100 Example.waves = (scaled, none) ∧
    scaled.map Command.letter = Example.waves.map Command.letter ∧
    List.Forall₂ (Drifts (100 : ℤ)) (implied (figures shortestValue {} Example.waves))
      (implied (figures value {} scaled)) :=
  implied_applyScale (by decide +kernel) Example.digits_waves Example.held_waves

/-- The second reflection in a row is off by more than 3/2. -/
theorem not_within_implied : ¬ ∀ (scale : ℤ) (commands : List Command), BeginsWithMove commands →
    (∀ c ∈ commands, c.Proper) →
    (∀ c ∈ commands, ∀ x ∈ c.scaledOperands, Digits 27 (scale * x.shortestValue)) →
    (∀ f ∈ figures shortestValue {} commands, ∀ p ∈ f.points, HeldPoint scale p) →
    ∀ scaled, applyScale scale commands = (scaled, none) →
      List.Forall₂ (fun exact rounded : Implied => Within scale (3 / 2) exact.point rounded.point)
        (implied (figures shortestValue {} commands)) (implied (figures value {} scaled)) := by
  intro h
  have hproper : ∀ c ∈ Example.waves, c.Proper := by decide +kernel
  obtain ⟨scaled, hscaled, -, hfigures, -⟩ :=
    exists_scaleFrom (snapLength 100) (pen_at_origin 100) hproper Example.digits_waves Example.held_waves
      fun _ _ _ _ => rfl
  have hall := h 100 Example.waves (beginsWithMove_cons rfl _) hproper Example.digits_waves
    Example.held_waves scaled hscaled
  rw [snap_origin, Example.figures_waves] at hfigures
  have hexact : implied (figures shortestValue {} Example.waves) =
      [⟨.smoothQuadratic, 1, (303 / 1000, -1 / 10)⟩, ⟨.smoothQuadratic, 2, (507 / 1000, 1 / 10)⟩] := by
    rw [Example.figures_waves]
    decide +kernel
  have hrounded : implied (figures value {} scaled) =
      [⟨.smoothQuadratic, 1, (29, -10)⟩, ⟨.smoothQuadratic, 2, (53, 10)⟩] := by
    rw [hfigures]
    decide +kernel
  rw [hexact, hrounded] at hall
  obtain ⟨-, hlater⟩ := List.forall₂_cons.mp hall
  obtain ⟨⟨hx, -⟩, -⟩ := List.forall₂_cons.mp hlater
  rw [abs_le] at hx
  norm_num at hx

end Picture

end TersePath
