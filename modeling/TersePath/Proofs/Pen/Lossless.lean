import TersePath.Proofs.Pen.Relative

/-! Scales that lose nothing. Where every coordinate becomes an integer the pen never leaves the grid, its
exact and its rounded position are one, and a relative step is scaled to itself. -/

namespace TersePath

open Picture Binary64

def Picture.Place.scaled (scale : ℤ) (place : Place) : Place :=
  ⟨(scale : ℚ) • place.point, (scale : ℚ) • place.start⟩

/-- A command in scaled space that has lost nothing: all its coordinates and radii are multiplied. -/
structure Multiplied (scale : ℤ) (command scaled : Command) : Prop where
  same : scaled = { command with operands := scaled.operands }
  operands : List.Forall₂ (fun operand y => if operand.1 = .unscaled then y = operand.2
    else y.Is (scale * operand.2.shortestValue)) command.withRoles scaled.operands

namespace Multiplied

variable {scale : ℤ} {command scaled : Command}

lemma length (h : Multiplied scale command scaled) : scaled.operands.length = command.operands.length := by
  rw [← h.operands.length_eq, Command.withRoles, List.length_mapIdx]

lemma operand (h : Multiplied scale command scaled) {i : ℕ} (hi : i < command.operands.length)
    (hi' : i < scaled.operands.length) :
    if command.kind.role i = .unscaled then scaled.operands[i] = command.operands[i]
      else scaled.operands[i].Is (scale * command.operands[i].shortestValue) := by
  have hget := (List.forall₂_iff_get.mp h.operands).2 i (by simpa [Command.withRoles] using hi) hi'
  simpa [Command.withRoles] using hget

end Multiplied

section Multiplied

variable {scale : ℤ} {pen : Pen} {place : Place} {command : Command}

lemma Pen.At.get_onAxis (h : pen.At scale place) (hgrid : (place.scaled scale).OnGrid) (axis : Axis) :
    ∃ q, (pen.get axis).At scale q ∧ OnAxis (scale * q) := by
  cases axis with
  | x => exact ⟨_, h.x, hgrid.1.1⟩
  | y => exact ⟨_, h.y, hgrid.1.2⟩

lemma Pen.At.scaleOperand_whole (h : pen.At scale place) (hgrid : (place.scaled scale).OnGrid)
    (absolute : Bool) {role : Role} (hrole : role ≠ .unscaled) {x : Binary64} {n : ℤ}
    (hx : scale * x.shortestValue = n) (hn : |n| < 2 ^ 53) :
    (scaleOperand scale pen absolute role x).Is n := by
  have hdigits : Digits 27 (scale * x.shortestValue) := hx ▸ digits_integer (hn.trans (by norm_num))
  cases role with
  | unscaled => exact absurd rfl hrole
  | length =>
    rw [scaleOperand_length hdigits, snap_of_integer hx]
    exact Decimal.toBinary64_integer (Decimal.value_ofInt n) (natAbs_le_of_abs hn.le)
  | coordinate axis =>
    obtain ⟨q, hq, hqgrid⟩ := h.get_onAxis hgrid axis
    obtain ⟨b, hb, hblt⟩ : OnAxis (scale * basis absolute q) := by
      cases absolute with
      | true => simpa [basis] using onAxis_zero
      | false => exact hqgrid
    have hsum : scale * (basis absolute q + x.shortestValue) = (b + n : ℤ) := by
      rw [mul_add, hb, hx, Int.cast_add]
    have hfar : |b + n| < 2 ^ 54 := by
      rw [abs_lt] at hblt hn ⊢
      constructor <;> omega
    have hstep : snap scale (basis absolute q + x.shortestValue) - snap scale (basis absolute q) = n := by
      rw [snap_of_integer hsum, snap_of_integer hb, add_sub_cancel_left]
    have hscaled := scaleOperand_step absolute hq hdigits (hsum ▸ digits_integer hfar) (hstep.symm ▸ hn.le)
    rwa [hstep] at hscaled

/-- The scaled coordinates and radii of a command are integers that a number holds. -/
def Command.HeldBy (scale : ℤ) (command : Command) : Prop :=
  ∀ x ∈ command.scaledOperands, ∃ n : ℤ, scale * x.shortestValue = n ∧ |n| < 2 ^ 53

lemma multiplied_scaledBy (h : pen.At scale place) (hgrid : (place.scaled scale).OnGrid)
    (hheld : command.HeldBy scale) : Multiplied scale command (command.scaledBy scale pen) := by
  refine ⟨rfl, List.forall₂_iff_get.mpr ⟨?_, fun i hi hi' => ?_⟩⟩
  · simp [Command.withRoles, Command.scaledBy, Command.mapOperands]
  · simp only [List.get_eq_getElem, Command.withRoles, Command.scaledBy, Command.mapOperands,
      List.getElem_mapIdx]
    rw [Command.withRoles, List.length_mapIdx] at hi
    split
    · next hrole => rw [hrole, scaleOperand_unscaled]
    · next hrole =>
      obtain ⟨n, hx, hn⟩ := hheld _ (Command.mem_scaledOperands.mpr ⟨i, hi, hrole, rfl⟩)
      exact hx ▸ h.scaleOperand_whole hgrid command.absolute hrole hx hn

lemma integral_target (hproper : command.Proper) (hgrid : (place.scaled scale).OnGrid)
    (hheld : command.HeldBy scale) :
    Integral ((scale : ℚ) • (figure shortestValue place command).target) := by
  have hscaled : ∀ {p : Point}, OnGrid ((scale : ℚ) • p) → ∀ axis, ∃ n : ℤ, scale * along axis p = n := by
    intro p h axis
    cases axis with
    | x => exact ⟨_, h.1.choose_spec.1⟩
    | y => exact ⟨_, h.2.choose_spec.1⟩
  have haxis : ∀ axis, ∃ n : ℤ, scale * along axis (figure shortestValue place command).target = n := by
    intro axis
    by_cases hclose : command.kind = .close
    · have htarget : (figure shortestValue place command).target = place.start := by
        simp [figure, hclose, Figure.target]
      exact htarget ▸ hscaled hgrid.2 axis
    cases hfinish : command.finish? axis with
    | some x =>
      obtain ⟨hmem, htarget⟩ :=
        along_target_of_some shortestValue place hproper.1 hclose hfinish
      obtain ⟨n, hn, -⟩ := hheld x (Command.mem_scaledOperands_of_withRoles hmem (by simp))
      obtain ⟨b, hb⟩ : ∃ b : ℤ, scale * basis command.absolute (along axis place.point) = b := by
        cases command.absolute with
        | true => exact ⟨0, by simp⟩
        | false => exact hscaled hgrid.1 axis
      exact ⟨b + n, by rw [htarget, along_base, mul_add, hb, hn, Int.cast_add]⟩
    | none =>
      rw [along_target_of_none hproper.1 hclose hfinish]
      exact hscaled hgrid.1 axis
  obtain ⟨m, hm⟩ := haxis .x
  obtain ⟨n, hn⟩ := haxis .y
  exact ⟨m, n, Prod.ext hm hn⟩

lemma heldPoint_of_onGrid {p : Point} (h : OnGrid ((scale : ℚ) • p)) : HeldPoint scale p := by
  have hheld : ∀ {q : ℚ}, OnAxis (scale * q) → Held scale q := by
    rintro q ⟨n, hn, hlt⟩
    refine ⟨hn ▸ digits_integer (hlt.trans (by norm_num)), ?_⟩
    rw [hn]
    exact_mod_cast hlt
  exact ⟨hheld h.1, hheld h.2⟩

lemma onGrid_scaled_after (hgrid : (place.scaled scale).OnGrid) (f : Figure)
    (hend : OnGrid ((scale : ℚ) • f.target)) : ((place.after f).scaled scale).OnGrid := by
  cases f with
  | move p => exact ⟨hend, hend⟩
  | _ => exact ⟨hend, hgrid.2⟩

theorem multiplied_scaleFrom {commands : List Command} (hat : pen.At scale place)
    (hgrid : (place.scaled scale).OnGrid) (hproper : ∀ c ∈ commands, c.Proper)
    (hheld : ∀ c ∈ commands, c.HeldBy scale)
    (hnear : ∀ f ∈ figures shortestValue place commands, Near ((scale : ℚ) • f.target)) :
    ∃ scaled, scaleFrom scale pen commands = (scaled, none) ∧
      List.Forall₂ (Multiplied scale) commands scaled := by
  induction commands generalizing pen place with
  | nil => exact ⟨[], rfl, .nil⟩
  | cons command rest ih =>
    obtain ⟨hcommand, hproper⟩ := List.forall_mem_cons.mp hproper
    obtain ⟨hvalues, hheld⟩ := List.forall_mem_cons.mp hheld
    obtain ⟨htarget, hnear⟩ := List.forall_mem_cons.mp hnear
    have hend := onGrid_of_integral (integral_target hcommand hgrid hvalues) htarget
    have hdigits : ∀ x ∈ command.scaledOperands, Digits 27 (scale * x.shortestValue) := by
      intro x hx
      obtain ⟨n, hn, hlt⟩ := hvalues x hx
      exact hn ▸ digits_integer (hlt.trans (by norm_num))
    obtain ⟨moved, hstep, hmoved⟩ :=
      exists_scaleCommand hat hcommand ⟨hdigits, heldPoint_of_onGrid hend⟩
    obtain ⟨scaled, hscaled, hothers⟩ := ih hmoved (onGrid_scaled_after hgrid _ hend) hproper hheld hnear
    refine ⟨command.scaledBy scale pen :: scaled, ?_, .cons (multiplied_scaledBy hat hgrid hvalues) hothers⟩
    simp only [scaleFrom, hstep, hscaled]

end Multiplied

lemma onGrid_scaled_origin (scale : ℤ) : (Place.scaled scale {}).OnGrid := by
  have hzero : (scale : ℚ) • (0 : Point) = 0 := smul_zero _
  rw [Place.scaled, hzero]
  exact onGrid_origin

/-- The scale is the power of ten for the places that the path has, or the budget. Where the budget is
enough it is the least one that makes integers of all coordinates, and the scaled path loses nothing. -/
theorem lossless_resolveScale (commands : List Command) (budget : ℕ) :
    resolveScale commands budget = 10 ^ min budget (mostPlaces commands) ∧
      ((∀ c ∈ commands, ∀ x ∈ c.scaledOperands, x.decimalPlaces ≤ budget) →
        IsLeast {scale : ℕ | ∃ k : ℕ, scale = 10 ^ k ∧ ∀ c ∈ commands, c.WholeBy scale}
            (resolveScale commands budget) ∧
          ((∀ c ∈ commands, c.Proper) →
            (∀ c ∈ commands, ∀ x ∈ c.scaledOperands,
              |(resolveScale commands budget : ℚ) * x.shortestValue| < 2 ^ 52) →
            (∀ f ∈ figures shortestValue {} commands,
              Near ((resolveScale commands budget : ℚ) • f.target)) →
            ∃ scaled, applyScale (resolveScale commands budget) commands = (scaled, none) ∧
              List.Forall₂ (Multiplied (resolveScale commands budget)) commands scaled)) := by
  refine ⟨resolveScale_eq commands budget, fun hplaces => ?_⟩
  have hleast := isLeast_resolveScale hplaces
  refine ⟨hleast, fun hproper hvalues hnear => ?_⟩
  obtain ⟨k, -, hwhole⟩ := hleast.1
  have hheld : ∀ c ∈ commands, c.HeldBy (resolveScale commands budget) := by
    intro c hc x hx
    obtain ⟨n, hn⟩ := hwhole c hc x hx
    have hlt := hvalues c hc x hx
    rw [← Int.cast_natCast, hn] at hlt
    have hlt : |n| < 2 ^ 52 := by exact_mod_cast hlt
    exact ⟨n, hn, hlt.trans (by norm_num)⟩
  exact multiplied_scaleFrom (pen_at_origin _) (onGrid_scaled_origin _) hproper hheld
    (by simpa only [Int.cast_natCast] using hnear)

namespace Example

def petal : List Command :=
  [ { letter := ⟨.move, true⟩, operands := [hundredths 125, hundredths 0] },
    { letter := ⟨.smoothCubic, false⟩, operands :=
        [hundredths 50, hundredths (-25), hundredths 75, hundredths 0] },
    { letter := ⟨.arc, false⟩, operands :=
        [hundredths 50, hundredths 125, hundredths 3050, hundredths 0, hundredths 100, hundredths 25,
          hundredths (-25)] },
    { letter := ⟨.vertical, false⟩, operands := [hundredths 25] },
    { letter := ⟨.smoothQuadratic, true⟩, operands := [hundredths (-75), hundredths 150] },
    { letter := ⟨.close, false⟩, operands := [] },
    { letter := ⟨.move, false⟩, operands := [hundredths 25, hundredths 25] },
    { letter := ⟨.horizontal, true⟩, operands := [hundredths 125] } ]

end Example

theorem lossless_resolveScale_petal :
    (∀ c ∈ Example.petal, ∀ x ∈ c.scaledOperands, x.decimalPlaces ≤ 3) ∧
      (∀ c ∈ Example.petal, c.Proper) ∧
      (∀ c ∈ Example.petal, ∀ x ∈ c.scaledOperands,
        |(resolveScale Example.petal 3 : ℚ) * x.shortestValue| < 2 ^ 52) ∧
      (∀ f ∈ figures shortestValue {} Example.petal, Near ((resolveScale Example.petal 3 : ℚ) • f.target)) ∧
      resolveScale Example.petal 3 = 100 ∧
      IsLeast {scale : ℕ | ∃ k : ℕ, scale = 10 ^ k ∧ ∀ c ∈ Example.petal, c.WholeBy scale}
        (resolveScale Example.petal 3) ∧
      ∃ scaled, applyScale (resolveScale Example.petal 3) Example.petal = (scaled, none) ∧
        List.Forall₂ (Multiplied (resolveScale Example.petal 3)) Example.petal scaled := by
  have hplaces : ∀ c ∈ Example.petal, ∀ x ∈ c.scaledOperands, x.decimalPlaces ≤ 3 := by decide +kernel
  have hproper : ∀ c ∈ Example.petal, c.Proper := by decide +kernel
  have hvalues : ∀ c ∈ Example.petal, ∀ x ∈ c.scaledOperands,
      |(resolveScale Example.petal 3 : ℚ) * x.shortestValue| < 2 ^ 52 := by decide +kernel
  have hnear : ∀ f ∈ figures shortestValue {} Example.petal,
      Near ((resolveScale Example.petal 3 : ℚ) • f.target) := by decide +kernel
  obtain ⟨hleast, hlossless⟩ := (lossless_resolveScale Example.petal 3).2 hplaces
  exact ⟨hplaces, hproper, hvalues, hnear, by decide +kernel, hleast, hlossless hproper hvalues hnear⟩

end TersePath
