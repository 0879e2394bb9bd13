import TersePath.Proofs.Path.Operands
import TersePath.Proofs.Picture.Figure
import TersePath.Path.Scale

namespace TersePath

open Picture

namespace Picture

def along : Axis → Point → ℚ
  | .x, p => p.1
  | .y, p => p.2

lemma ext_along {p q : Point} (h : ∀ axis, along axis p = along axis q) : p = q := Prod.ext (h .x) (h .y)

def basis (absolute : Bool) (q : ℚ) : ℚ := if absolute then 0 else q

@[simp] lemma basis_absolute (q : ℚ) : basis true q = 0 := rfl

@[simp] lemma basis_relative (q : ℚ) : basis false q = q := rfl

lemma base_eq (place : Place) (absolute : Bool) :
    place.base absolute = (basis absolute place.point.1, basis absolute place.point.2) := by
  cases absolute <;> rfl

lemma along_base (place : Place) (absolute : Bool) (axis : Axis) :
    along axis (place.base absolute) = basis absolute (along axis place.point) := by
  rw [base_eq]
  cases axis <;> rfl

/-- A figure whose coordinates are changed in one way and whose radii in another. -/
def Figure.map (coordinate length : ℚ → ℚ) : Figure → Figure
  | move p => move (p.map coordinate coordinate)
  | line p => line (p.map coordinate coordinate)
  | cubic first second p =>
    cubic (first.map (Prod.map coordinate coordinate)) (second.map coordinate coordinate)
      (p.map coordinate coordinate)
  | quadratic control p =>
    quadratic (control.map (Prod.map coordinate coordinate)) (p.map coordinate coordinate)
  | arc radii manner p => arc (radii.map length length) manner (p.map coordinate coordinate)
  | close p => close (p.map coordinate coordinate)

@[simp] lemma Figure.map_id (f : Figure) : f.map id id = f := by
  cases f <;> simp [Figure.map]

end Picture

namespace Command

variable {command : Command} {role : Role} {x : Binary64}

lemma mem_withRoles : (role, x) ∈ command.withRoles ↔ ∃ i, ∃ h : i < command.operands.length,
    command.kind.role i = role ∧ command.operands[i] = x := by
  simp [withRoles, List.mem_mapIdx]

lemma mem_operands_of_withRoles (h : (role, x) ∈ command.withRoles) : x ∈ command.operands := by
  obtain ⟨i, hi, -, rfl⟩ := mem_withRoles.mp h
  exact List.getElem_mem hi

lemma mem_scaledOperands : x ∈ command.scaledOperands ↔
    ∃ i, ∃ h : i < command.operands.length, command.kind.role i ≠ .unscaled ∧
      command.operands[i] = x := by
  simp only [scaledOperands, withRoles, List.mem_map, List.mem_filter, List.mem_mapIdx]
  constructor
  · rintro ⟨_, ⟨⟨i, hi, rfl⟩, hrole⟩, rfl⟩
    exact ⟨i, hi, by simpa using hrole, rfl⟩
  · rintro ⟨i, hi, hrole, rfl⟩
    exact ⟨_, ⟨⟨i, hi, rfl⟩, by simpa using hrole⟩, rfl⟩

lemma mem_scaledOperands_of_withRoles (h : (role, x) ∈ command.withRoles) (hrole : role ≠ .unscaled) :
    x ∈ command.scaledOperands :=
  List.mem_map.mpr ⟨(role, x), List.mem_filter.mpr ⟨h, by simpa using hrole⟩, rfl⟩

lemma proper_mapOperands {f : Role → Binary64 → Binary64} (hproper : command.Proper)
    (h : ∀ role x, (role, x) ∈ command.withRoles → (f role x).isFinite = true) :
    (command.mapOperands f).Proper := by
  refine ⟨(List.length_mapIdx ..).trans hproper.1, fun y hy => ?_⟩
  obtain ⟨i, hi, rfl⟩ := List.mem_mapIdx.mp hy
  exact h _ _ (mem_withRoles.mpr ⟨i, hi, rfl, rfl⟩)

end Command

section Figure

variable {command : Command} {read : Binary64 → ℚ} {place : Place} {axis : Axis} {x : Binary64}

lemma exists_along_point (read : Binary64 → ℚ) (place : Place) (hwell : command.WellFormed)
    (h : (Role.coordinate axis, x) ∈ command.withRoles) :
    ∃ p ∈ (figure read place command).points,
      along axis p = along axis (place.base command.absolute) + read x := by
  obtain ⟨⟨kind, absolute⟩, operands, closes, text⟩ := command
  have hops : Operands kind operands := hwell.operands
  cases hops <;> cases axis <;>
    simp [Command.withRoles, Kind.role, figure, Command.kind, Command.absolute, Figure.points,
      along] at h ⊢ <;> grind

lemma forall_along_points {P : ℚ → Prop} (hwell : command.WellFormed)
    (hpoint : ∀ axis, P (along axis place.point)) (hstart : ∀ axis, P (along axis place.start))
    (hoperand : ∀ axis x, (Role.coordinate axis, x) ∈ command.withRoles →
      P (along axis (place.base command.absolute) + read x)) :
    ∀ p ∈ (figure read place command).points, P p.1 ∧ P p.2 := by
  have hx : ∀ x, (Role.coordinate .x, x) ∈ command.withRoles →
      P ((place.base command.absolute).1 + read x) := hoperand .x
  have hy : ∀ y, (Role.coordinate .y, y) ∈ command.withRoles →
      P ((place.base command.absolute).2 + read y) := hoperand .y
  have hpx : P place.point.1 := hpoint .x
  have hpy : P place.point.2 := hpoint .y
  obtain ⟨⟨kind, absolute⟩, operands, closes, text⟩ := command
  have hops : Operands kind operands := hwell.operands
  cases hops with
  | close => simpa [figure, Command.kind, Figure.points] using ⟨hstart .x, hstart .y⟩
  | _ =>
    simp [Command.withRoles, Kind.role, Command.kind, Command.absolute] at hx hy
    simp [figure, Command.kind, Command.absolute, Figure.points, hx, hy, hpx, hpy]

/-- Operands that are changed one by one, with another pen to count them from: their coordinates lead to
changed coordinates, their lengths become changed lengths. -/
structure Carries (read read' : Binary64 → ℚ) (place place' : Place) (command : Command)
    (absolute' : Bool) (f : Role → Binary64 → Binary64) (coordinate length : ℚ → ℚ) : Prop where
  point : place'.point = place.point.map coordinate coordinate
  start : place'.start = place.start.map coordinate coordinate
  coordinate : ∀ axis x, (Role.coordinate axis, x) ∈ command.withRoles →
    along axis (place'.base absolute') + read' (f (.coordinate axis) x) =
      coordinate (along axis (place.base command.absolute) + read x)
  length : ∀ r, (Role.length, r) ∈ command.withRoles → read' (f .length r) = length (read r)
  unscaled : ∀ x, (f .unscaled x).value = x.value

lemma Carries.figure {read' : Binary64 → ℚ} {place' : Place} {absolute' : Bool}
    {f : Role → Binary64 → Binary64} {coordinate length : ℚ → ℚ} (hwell : command.WellFormed)
    (h : Carries read read' place place' command absolute' f coordinate length) :
    figure read' place' { command.mapOperands f with letter := ⟨command.kind, absolute'⟩ } =
      (Picture.figure read place command).map coordinate length := by
  have hpair : ∀ x y, (Role.coordinate .x, x) ∈ command.withRoles →
      (Role.coordinate .y, y) ∈ command.withRoles → place'.base absolute' +
        (read' (f (.coordinate .x) x), read' (f (.coordinate .y) y)) =
      (place.base command.absolute + (read x, read y)).map coordinate coordinate :=
    fun x y hx hy => Prod.ext (h.coordinate .x x hx) (h.coordinate .y y hy)
  obtain ⟨hpoint, hstart, hcoordinate, hlength, hunscaled⟩ := h
  have hpx : place'.point.1 = coordinate place.point.1 := congrArg Prod.fst hpoint
  have hpy : place'.point.2 = coordinate place.point.2 := congrArg Prod.snd hpoint
  obtain ⟨⟨kind, absolute⟩, operands, closes, text⟩ := command
  have hops : Operands kind operands := hwell.operands
  cases hops with
  | horizontal x =>
    have hx := hcoordinate .x x (by simp [Command.withRoles, Kind.role, Command.kind])
    exact congrArg Figure.line (Prod.ext hx hpy)
  | vertical y =>
    have hy := hcoordinate .y y (by simp [Command.withRoles, Kind.role, Command.kind])
    exact congrArg Figure.line (Prod.ext hpx hy)
  | close => exact congrArg Figure.close hstart
  | _ =>
    simp [Command.withRoles, Kind.role, Command.kind, Command.absolute] at hpair hlength
    simp [Command.mapOperands, Kind.role, Picture.figure, Command.kind, Command.absolute, Figure.map,
      hpair, hlength, hunscaled]

lemma figure_eq_map {read' : Binary64 → ℚ} {coordinate length : ℚ → ℚ} (hwell : command.WellFormed)
    (hpoint : ∀ axis, along axis place.point = coordinate (along axis place.point))
    (hstart : ∀ axis, along axis place.start = coordinate (along axis place.start))
    (hcoordinate : ∀ axis x, (Role.coordinate axis, x) ∈ command.withRoles →
      along axis (place.base command.absolute) + read' x =
        coordinate (along axis (place.base command.absolute) + read x))
    (hlength : ∀ r, (Role.length, r) ∈ command.withRoles → read' r = length (read r)) :
    figure read' place command = (figure read place command).map coordinate length := by
  have hcarries : Carries read read' place place command command.absolute (fun _ x => x) coordinate
      length :=
    ⟨Prod.ext (hpoint .x) (hpoint .y), Prod.ext (hstart .x) (hstart .y), hcoordinate, hlength,
      fun _ => rfl⟩
  have hsame : { command.mapOperands (fun _ x => x) with letter := ⟨command.kind, command.absolute⟩ } =
      command := by
    simp [Command.mapOperands, Command.kind, Command.absolute, List.mapIdx_eq_zipIdx_map]
  rw [← hcarries.figure hwell, hsame]

lemma along_target_of_some (read : Binary64 → ℚ) (place : Place) (hwell : command.WellFormed)
    (hclose : command.kind ≠ .close) (h : command.finish? axis = some x) :
    (Role.coordinate axis, x) ∈ command.withRoles ∧
      along axis (figure read place command).target =
        along axis (place.base command.absolute) + read x := by
  obtain ⟨⟨kind, absolute⟩, operands, closes, text⟩ := command
  have hops : Operands kind operands := hwell.operands
  cases hops with
  | close => exact absurd rfl hclose
  | _ =>
    cases axis <;>
      simp_all [Command.withRoles, Kind.role, Command.finish?, figure, Command.kind, Command.absolute,
        Figure.target, along]

lemma along_target_of_none (hwell : command.WellFormed) (hclose : command.kind ≠ .close)
    (h : command.finish? axis = none) :
    along axis (figure read place command).target = along axis place.point := by
  obtain ⟨⟨kind, absolute⟩, operands, closes, text⟩ := command
  have hops : Operands kind operands := hwell.operands
  cases hops with
  | close => exact absurd rfl hclose
  | _ => cases axis <;> simp_all [Command.finish?, figure, Command.kind, Figure.target, along]

lemma finish?_mapOperands (hwell : command.WellFormed) (f : Role → Binary64 → Binary64) (axis : Axis) :
    (command.mapOperands f).finish? axis = (command.finish? axis).map (f (.coordinate axis)) := by
  obtain ⟨⟨kind, absolute⟩, operands, closes, text⟩ := command
  have hops : Operands kind operands := hwell.operands
  cases hops <;> cases axis <;>
    simp [Command.mapOperands, Kind.role, Command.finish?, Command.kind]

end Figure

end TersePath
