import TersePath.Proofs.Path.Precision
import TersePath.Proofs.Picture.Scale

namespace TersePath

open Picture Binary64

def Binary64.Integer (x : Binary64) : Prop := ∃ n : ℤ, x.Is n ∧ |n| < 2 ^ 53

/-- Coordinates and radii are integers; the rotation and the flags of an arc may be anything. -/
def Command.Integer (command : Command) : Prop := ∀ x ∈ command.scaledOperands, x.Integer

namespace Picture

def Integral (p : Point) : Prop := ∃ m n : ℤ, p = ((m : ℚ), (n : ℚ))

def Near (p : Point) : Prop := |p.1| < 2 ^ 52 ∧ |p.2| < 2 ^ 52

instance (p : Point) : Decidable (Near p) := inferInstanceAs (Decidable (_ ∧ _))

lemma integral_zero : Integral 0 := ⟨0, 0, by simp; rfl⟩

def Place.Integral (place : Place) : Prop :=
  Picture.Integral place.point ∧ Picture.Integral place.start

end Picture

lemma natAbs_lt_of_abs {n : ℤ} {k : ℕ} (h : |n| < 2 ^ k) : n.natAbs < 2 ^ k := by
  rw [Int.abs_eq_natAbs] at h
  exact_mod_cast h

lemma Picture.Place.Integral.base {place : Place} (h : place.Integral) (absolute : Bool) :
    Picture.Integral (place.base absolute) := by
  cases absolute with
  | true => exact integral_zero
  | false => exact h.1

namespace Example

lemma integer_of_ofInt {commands : List Command} (values : List ℤ) (hvalues : ∀ n ∈ values, |n| < 2 ^ 53)
    (h : ∀ c ∈ commands, ∀ x ∈ c.scaledOperands, ∃ n ∈ values, x = Binary64.ofInt n) :
    ∀ c ∈ commands, c.Integer := by
  intro c hc x hx
  obtain ⟨n, hn, hvalue⟩ := h c hc x hx
  rw [hvalue]
  exact ⟨n, ofInt_is (natAbs_le_of_abs (hvalues n hn).le), hvalues n hn⟩

end Example

lemma shortestValue_of_integer {x : Binary64} (h : x.Integer) :
    x.shortestValue = x.value := by
  obtain ⟨n, hn, hlt⟩ := h
  rw [shortestValue, value_toDecimal_of_integer hn (natAbs_lt_of_abs hlt), hn.2]

lemma snap_integer (n : ℤ) : snap 1 n = n := snap_of_integer (by simp)

section Command

variable {place : Place} {command : Command}

lemma exists_value_of_integer (hinteger : command.Integer) {role : Role} (hrole : role ≠ .unscaled)
    {x : Binary64} (hx : (role, x) ∈ command.withRoles) : ∃ n : ℤ, x.value = n := by
  obtain ⟨n, hn, -⟩ := hinteger x (Command.mem_scaledOperands_of_withRoles hx hrole)
  exact ⟨n, hn.2⟩

lemma exists_along_of_integral {p : Point} (h : Picture.Integral p) (axis : Axis) :
    ∃ n : ℤ, along axis p = n := by
  obtain ⟨m, n, rfl⟩ := h
  cases axis with
  | x => exact ⟨m, rfl⟩
  | y => exact ⟨n, rfl⟩

lemma exists_along_add (hinteger : command.Integer) (hplace : place.Integral) {axis : Axis}
    {x : Binary64} (hx : (Role.coordinate axis, x) ∈ command.withRoles) :
    ∃ n : ℤ, along axis (place.base command.absolute) + x.value = n := by
  obtain ⟨m, hm⟩ := exists_along_of_integral (hplace.base command.absolute) axis
  obtain ⟨n, hn⟩ := exists_value_of_integer hinteger (by simp) hx
  exact ⟨m + n, by rw [hm, hn, Int.cast_add]⟩

lemma points_integral (hproper : command.Proper) (hinteger : command.Integer)
    (hplace : place.Integral) : ∀ p ∈ (figure value place command).points, Picture.Integral p := by
  intro p hp
  obtain ⟨⟨m, hm⟩, n, hn⟩ := forall_along_points (P := fun q => ∃ n : ℤ, q = n) hproper.1
    (exists_along_of_integral hplace.1) (exists_along_of_integral hplace.2)
    (fun _ _ hx => exists_along_add hinteger hplace hx) p hp
  exact ⟨m, n, Prod.ext hm hn⟩

lemma figure_congr_read {f g : Binary64 → ℚ} (hproper : command.Proper)
    (h : ∀ x ∈ command.scaledOperands, f x = g x) : figure f place command = figure g place command := by
  have hmap : figure f place command = (figure g place command).map id id :=
    figure_eq_map hproper.1 (fun _ => rfl) (fun _ => rfl)
      (fun _ x hx => by rw [h x (Command.mem_scaledOperands_of_withRoles hx (by simp)), id])
      (fun r hr => h r (Command.mem_scaledOperands_of_withRoles hr (by simp)))
  rw [hmap, Figure.map_id]

lemma snap_figure (hproper : command.Proper) (hinteger : command.Integer)
    (hplace : place.Integral) : (figure value place command).snap 1 = figure value place command := by
  have hsnap : ∀ {q : ℚ}, (∃ n : ℤ, q = n) → q = snap 1 q := by
    rintro _ ⟨n, rfl⟩
    rw [snap_integer]
  exact (figure_eq_map hproper.1 (fun axis => hsnap (exists_along_of_integral hplace.1 axis))
    (fun axis => hsnap (exists_along_of_integral hplace.2 axis))
    (fun _ _ hx => hsnap (exists_along_add hinteger hplace hx))
    (fun _ hr => hsnap (exists_value_of_integer hinteger (by simp) hr))).symm

lemma integral_after (hproper : command.Proper) (hinteger : command.Integer)
    (hplace : place.Integral) : (place.after (figure value place command)).Integral := by
  have htarget := points_integral hproper hinteger hplace _ (target_mem_points _)
  cases hf : figure value place command with
  | move p =>
    rw [hf] at htarget
    exact ⟨htarget, htarget⟩
  | _ =>
    rw [hf] at htarget
    exact ⟨htarget, hplace.2⟩

end Command

lemma figures_integral {place : Place} {commands : List Command} (hproper : ∀ c ∈ commands, c.Proper)
    (hinteger : ∀ c ∈ commands, c.Integer) (hplace : place.Integral) :
    figures shortestValue place commands = figures value place commands ∧
      (figures value place commands).map (Figure.snap 1) = figures value place commands ∧
      ∀ f ∈ figures value place commands, ∀ p ∈ f.points, Picture.Integral p := by
  induction commands generalizing place with
  | nil => exact ⟨rfl, rfl, by simp [figures]⟩
  | cons command rest ih =>
    simp only [List.forall_mem_cons] at hproper hinteger
    have hcongr : figure shortestValue place command = figure value place command :=
      figure_congr_read hproper.1 fun x hx => shortestValue_of_integer (hinteger.1 x hx)
    obtain ⟨hread, hsnap, hpoints⟩ := ih hproper.2 hinteger.2
      (integral_after hproper.1 hinteger.1 hplace)
    refine ⟨?_, ?_, ?_⟩
    · simp only [figures, hcongr, hread]
    · simp only [figures, List.map_cons, hsnap, snap_figure hproper.1 hinteger.1 hplace]
    · simp only [figures, List.forall_mem_cons]
      exact ⟨points_integral hproper.1 hinteger.1 hplace, hpoints⟩

lemma integral_origin : Place.Integral {} := ⟨integral_zero, integral_zero⟩

theorem resolveScale_of_integer {commands : List Command} (hinteger : ∀ c ∈ commands, c.Integer)
    (budget : ℕ) : resolveScale commands budget = 1 := by
  have hplaces : mostPlaces commands ≤ 0 := by
    refine mostPlaces_le_iff.mpr fun c hc x hx => ?_
    obtain ⟨n, hn, hlt⟩ := hinteger c hc x hx
    exact (decimalPlaces_of_integer hn (natAbs_lt_of_abs hlt)).le
  rw [resolveScale_eq, Nat.le_zero.mp hplaces, Nat.min_zero, pow_zero]

/-- At a scale of one, integers stay where they are. -/
theorem applyScale_of_integer {commands : List Command} (hproper : ∀ c ∈ commands, c.Proper)
    (hinteger : ∀ c ∈ commands, c.Integer)
    (hnear : ∀ f ∈ figures value {} commands, ∀ p ∈ f.points, Near p) :
    ∃ scaled, applyScale 1 commands = (scaled, none) ∧
      List.Forall₂ (fun c s => s = { c with operands := s.operands }) commands scaled ∧
      figures value {} scaled = figures value {} commands ∧ ∀ s ∈ scaled, s.Proper := by
  obtain ⟨hread, hsnap, hintegral⟩ := figures_integral hproper hinteger integral_origin
  have hlength : ∀ c ∈ commands, ∀ x ∈ c.scaledOperands,
      ∃ n : ℤ, x.shortestValue = n ∧ |n| < 2 ^ 53 := by
    intro c hc x hx
    obtain ⟨n, hn, hlt⟩ := hinteger c hc x hx
    exact ⟨n, (shortestValue_of_integer ⟨n, hn, hlt⟩).trans hn.2, hlt⟩
  have hdigits : ∀ {n : ℤ} {q : ℚ}, q = n → |n| < 2 ^ 53 → Digits 27 ((1 : ℤ) * q) := by
    rintro n q rfl hlt
    rw [Int.cast_one, one_mul]
    exact digits_integer (hlt.trans (by norm_num))
  have hsmall : ∀ c ∈ commands, ∀ r, (Role.length, r) ∈ c.withRoles →
      |snap 1 r.shortestValue| ≤ 2 ^ 53 := by
    intro c hc r hr
    obtain ⟨n, hn, hlt⟩ := hlength c hc r (Command.mem_scaledOperands_of_withRoles hr (by simp))
    rw [hn, snap_integer]
    exact hlt.le
  obtain ⟨scaled, hscaled, hsame, hfigures, hfinite⟩ := exists_scaleFrom (fun r => snap 1 r)
    (pen_at_origin 1) hproper
    (fun c hc x hx => by
      obtain ⟨n, hn, hlt⟩ := hlength c hc x hx
      exact hdigits hn hlt)
    (fun f hf p hp => by
      rw [hread] at hf
      obtain ⟨hx, hy⟩ := hnear f hf p hp
      obtain ⟨m, n, rfl⟩ := hintegral f hf p hp
      have hcast : ∀ {k : ℤ}, |(k : ℚ)| < 2 ^ 52 → Held 1 (k : ℚ) := by
        intro k hk
        have hlt : |k| < 2 ^ 52 := by exact_mod_cast hk
        exact ⟨hdigits rfl (hlt.trans (by norm_num)), by simpa using hk⟩
      exact ⟨hcast hx, hcast hy⟩)
    (fun c hc r hr => snapLength_eq (hsmall c hc r hr))
  have hfigures : figures value (Place.snap 1 {}) scaled =
      (figures shortestValue {} commands).map (Figure.snap 1) := hfigures
  rw [snap_origin, hread, hsnap] at hfigures
  exact ⟨scaled, hscaled, hsame, hfigures, hfinite hsmall⟩

end TersePath
