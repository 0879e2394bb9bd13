import TersePath.Proofs.Picture.Snap

/-! Scaled paths. A command leads from one rounded position to the next, whatever way it counts its
operands, so that rounding errors do not add up along a path. -/

namespace TersePath

open Picture Binary64

lemma basis_snap (scale : ℤ) (absolute : Bool) (q : ℚ) :
    basis absolute (snap scale q) = snap scale (basis absolute q) := by
  cases absolute with
  | true => simp [basis, snap_zero]
  | false => rfl

lemma along_snap (scale : ℤ) (place : Place) (axis : Axis) :
    along axis (place.snap scale).point = snap scale (along axis place.point) := by
  cases axis <;> rfl

lemma Picture.HeldPoint.along {scale : ℤ} {p : Point} (h : HeldPoint scale p) (axis : Axis) :
    Held scale (along axis p) := by
  cases axis with
  | x => exact h.1
  | y => exact h.2

lemma Pen.At.get {pen : Pen} {scale : ℤ} {place : Place} (h : pen.At scale place) (axis : Axis) :
    (pen.get axis).At scale (along axis place.point) := by
  cases axis with
  | x => exact h.x
  | y => exact h.y

def Command.scaledBy (scale : ℤ) (pen : Pen) (command : Command) : Command :=
  command.mapOperands (scaleOperand scale pen command.absolute)

structure Scaled (scale : ℤ) (length : ℚ → ℚ) (place : Place) (command scaled : Command) : Prop where
  same : scaled = { command with operands := scaled.operands }
  figure : figure value (place.snap scale) scaled =
    (figure shortestValue place command).map (fun q => snap scale q) length
  finite : (∀ r, (Role.length, r) ∈ command.withRoles → |snap scale r.shortestValue| ≤ 2 ^ 53) →
    scaled.Proper

lemma finite_of_mem_scaledOperands {command : Command} (hproper : command.Proper) :
    command.scaledOperands.all Binary64.isFinite = true := by
  rw [List.all_eq_true]
  intro x hx
  obtain ⟨i, hi, -, rfl⟩ := Command.mem_scaledOperands.mp hx
  exact hproper.2 _ (List.getElem_mem hi)

lemma scaleCommand_of_proper {scale : ℤ} {pen : Pen} {command : Command} (hproper : command.Proper)
    (hk : command.kind ≠ .close) {half moved : Pen}
    (hx : pen.follow scale command (command.scaledBy scale pen) .x = .ok half)
    (hy : half.follow scale command (command.scaledBy scale pen) .y = .ok moved) :
    scaleCommand scale pen command = (command.scaledBy scale pen,
      .ok (if command.kind = .move then moved.markStart else moved)) := by
  rw [Command.scaledBy] at hx hy
  simp only [scaleCommand, if_neg hk, if_pos (finite_of_mem_scaledOperands hproper), hx]
  simp only [Except.bind, hy]
  split <;> rfl

section Step

variable {scale : ℤ} {length : ℚ → ℚ} {pen : Pen} {place : Place} {command : Command}

/-- The coordinates of a command are held exactly, and so are the points that they lead to. -/
structure HeldCommand (scale : ℤ) (place : Place) (command : Command) : Prop where
  values : ∀ x ∈ command.scaledOperands, Digits 27 (scale * x.shortestValue)
  points : ∀ p ∈ (figure shortestValue place command).points, HeldPoint scale p

lemma scaleOperand_of_held (hpen : pen.At scale place) (hproper : command.Proper)
    (hheld : HeldCommand scale place command) {axis : Axis} {x : Binary64}
    (hx : (Role.coordinate axis, x) ∈ command.withRoles) :
    (scaleOperand scale pen command.absolute (.coordinate axis) x).Is
      (snap scale (basis command.absolute (along axis place.point) + x.shortestValue) -
        snap scale (basis command.absolute (along axis place.point)) : ℤ) := by
  obtain ⟨p, hp, halong⟩ := exists_along_point shortestValue place hproper.1 hx
  have hend := (hheld.points p hp).along axis
  rw [halong, along_base] at hend
  exact scaleOperand_coordinate (hpen.get axis)
    (hheld.values x (Command.mem_scaledOperands_of_withRoles hx (by simp))) hend

/-- A scaled command leads to the rounded points, with finite coordinates. -/
theorem scaledBy_scaled (hpen : pen.At scale place) (hproper : command.Proper)
    (hheld : HeldCommand scale place command)
    (hlength : ∀ r, (Role.length, r) ∈ command.withRoles →
      snapLength scale r.shortestValue = length r.shortestValue) :
    Scaled scale length place command (command.scaledBy scale pen) := by
  have hscaled : ∀ r, (Role.length, r) ∈ command.withRoles →
      scaleOperand scale pen command.absolute .length r =
        (Decimal.ofInt (snap scale r.shortestValue)).toBinary64 := fun r hr =>
    scaleOperand_length (hheld.values r (Command.mem_scaledOperands_of_withRoles hr (by simp)))
  refine ⟨rfl, ?_, fun hsmall => Command.proper_mapOperands hproper fun role x hx => ?_⟩
  · have hcarries : Carries shortestValue value place (place.snap scale) command command.absolute
        (scaleOperand scale pen command.absolute) (fun q => snap scale q) length := by
      refine ⟨rfl, rfl, fun axis x hx => ?_, fun r hr => hscaled r hr ▸ hlength r hr, fun _ => rfl⟩
      rw [along_base, along_base, along_snap, basis_snap, (scaleOperand_of_held hpen hproper hheld hx).2]
      push_cast
      ring
    exact hcarries.figure hproper.1
  · cases role with
    | coordinate axis => exact (scaleOperand_of_held hpen hproper hheld hx).1
    | length => exact hscaled x hx ▸ finite_length (hsmall x hx)
    | unscaled => exact hproper.2 x (Command.mem_operands_of_withRoles hx)

lemma target_mem_points (f : Figure) : f.target ∈ f.points := by
  cases f <;> simp [Figure.target, Figure.points]

lemma after_of_not_move {f : Figure} (h : ∀ p, f ≠ .move p) (place : Place) :
    place.after f = { place with point := f.target } := by
  cases f with
  | move p => exact absurd rfl (h p)
  | _ => rfl

lemma figure_ne_move {read : Binary64 → ℚ} (hk : command.kind ≠ .move) (p : Point) :
    figure read place command ≠ .move p := by
  simp only [figure]
  split <;> simp_all

lemma figure_move {read : Binary64 → ℚ} (hproper : command.Proper) (hk : command.kind = .move) :
    figure read place command = .move (figure read place command).target := by
  obtain ⟨⟨kind, absolute⟩, operands, closes, text⟩ := command
  obtain rfl : kind = .move := hk
  have hops : Operands .move operands := hproper.1.operands
  cases hops
  rfl

structure HeldEnd (scale : ℤ) (place : Place) (command : Command) : Prop where
  values : ∀ x ∈ command.scaledOperands, Digits 27 (scale * x.shortestValue)
  target : HeldPoint scale (figure shortestValue place command).target

lemma HeldCommand.end (h : HeldCommand scale place command) : HeldEnd scale place command :=
  ⟨h.values, h.points _ (target_mem_points _)⟩

lemma scaleCommand_close (hpen : pen.At scale place) (hproper : command.Proper)
    (hk : command.kind = .close) :
    ∃ moved, scaleCommand scale pen command = (command.scaledBy scale pen, .ok moved) ∧
      moved.At scale (place.after (figure shortestValue place command)) := by
  obtain ⟨⟨kind, absolute⟩, operands, closes, text⟩ := command
  obtain rfl : kind = .close := hk
  obtain rfl : operands = [] := List.length_eq_zero_iff.mp hproper.1
  exact ⟨pen.close, rfl, hpen.startX, hpen.startY, hpen.startX, hpen.startY⟩

lemma exists_follow (half : Pen) (axis : Axis) (hpen : pen.At scale place)
    (hhalf : (half.get axis).At scale (along axis place.point)) (hproper : command.Proper)
    (hclose : command.kind ≠ .close) (hheld : HeldEnd scale place command) :
    ∃ track, half.follow scale command (command.scaledBy scale pen) axis = .ok (half.set axis track) ∧
      track.At scale (along axis (figure shortestValue place command).target) := by
  have hend := hheld.target.along axis
  cases hfinish : command.finish? axis with
  | some x =>
    obtain ⟨hmem, htarget⟩ :=
      along_target_of_some shortestValue place hproper.1 hclose hfinish
    have hdigits := hheld.values x (Command.mem_scaledOperands_of_withRoles hmem (by simp))
    have hscaled : (command.scaledBy scale pen).finish? axis =
        some (scaleOperand scale pen command.absolute (.coordinate axis) x) := by
      rw [Command.scaledBy, finish?_mapOperands hproper.1, hfinish, Option.map_some]
    rw [htarget, along_base] at hend ⊢
    exact follow_axis _ _ hhalf hdigits hend hfinish hscaled
      (scaleOperand_coordinate (hpen.get axis) hdigits hend)
  | none =>
    refine ⟨half.get axis, ?_, along_target_of_none hproper.1 hclose hfinish ▸ hhalf⟩
    have hset : half.set axis (half.get axis) = half := by cases axis <;> rfl
    simp only [Pen.follow, hfinish, hset]

/-- The pen after one command; the control points of a curve do not matter to it. -/
theorem exists_scaleCommand (hpen : pen.At scale place) (hproper : command.Proper)
    (hheld : HeldEnd scale place command) :
    ∃ moved, scaleCommand scale pen command = (command.scaledBy scale pen, .ok moved) ∧
      moved.At scale (place.after (figure shortestValue place command)) := by
  by_cases hclose : command.kind = .close
  · exact scaleCommand_close hpen hproper hclose
  obtain ⟨trackX, hfollowX, hx⟩ := exists_follow pen .x hpen hpen.x hproper hclose hheld
  obtain ⟨trackY, hfollowY, hy⟩ :=
    exists_follow (pen.set .x trackX) .y hpen hpen.y hproper hclose hheld
  refine ⟨_, scaleCommand_of_proper hproper hclose hfollowX hfollowY, ?_⟩
  by_cases hmove : command.kind = .move
  · rw [if_pos hmove, figure_move hproper hmove]
    exact ⟨hx, hy, hx, hy⟩
  · rw [if_neg hmove, after_of_not_move (figure_ne_move hmove)]
    exact ⟨hx, hy, hpen.startX, hpen.startY⟩

end Step

lemma snap_after (scale : ℤ) (length : ℚ → ℚ) (place : Place) (f : Figure) :
    (place.snap scale).after (f.map (fun q => snap scale q) length) = (place.after f).snap scale := by
  cases f <;> rfl

theorem exists_scaleFrom {scale : ℤ} (length : ℚ → ℚ) {pen : Pen} {place : Place} {commands : List Command}
    (hpen : pen.At scale place) (hproper : ∀ c ∈ commands, c.Proper)
    (hvalues : ∀ c ∈ commands, ∀ x ∈ c.scaledOperands, Digits 27 (scale * x.shortestValue))
    (hpoints : ∀ f ∈ figures shortestValue place commands, ∀ p ∈ f.points, HeldPoint scale p)
    (hlength : ∀ c ∈ commands, ∀ r, (Role.length, r) ∈ c.withRoles →
      snapLength scale r.shortestValue = length r.shortestValue) :
    ∃ scaled, scaleFrom scale pen commands = (scaled, none) ∧
      List.Forall₂ (fun c s => s = { c with operands := s.operands }) commands scaled ∧
      figures value (place.snap scale) scaled =
        (figures shortestValue place commands).map (Figure.map (fun q => snap scale q) length) ∧
      ((∀ c ∈ commands, ∀ r, (Role.length, r) ∈ c.withRoles → |snap scale r.shortestValue| ≤ 2 ^ 53) →
        ∀ s ∈ scaled, s.Proper) := by
  induction commands generalizing pen place with
  | nil => exact ⟨[], rfl, .nil, rfl, by simp⟩
  | cons command rest ih =>
    have hcommand : HeldCommand scale place command :=
      ⟨hvalues command List.mem_cons_self, hpoints _ List.mem_cons_self⟩
    have hscaled := scaledBy_scaled hpen (hproper command List.mem_cons_self) hcommand
      (hlength command List.mem_cons_self)
    obtain ⟨moved, hstep, hmoved⟩ :=
      exists_scaleCommand hpen (hproper command List.mem_cons_self) hcommand.end
    obtain ⟨others, hothers, hsame, hfigures, hfinite⟩ := ih hmoved
      (fun c hc => hproper c (List.mem_cons_of_mem _ hc))
      (fun c hc => hvalues c (List.mem_cons_of_mem _ hc))
      (fun f hf => hpoints f (List.mem_cons_of_mem _ hf))
      (fun c hc => hlength c (List.mem_cons_of_mem _ hc))
    refine ⟨command.scaledBy scale pen :: others, ?_, .cons hscaled.same hsame, ?_,
      fun hlengths s hs => ?_⟩
    · simp only [scaleFrom, hstep, hothers]
    · simp only [figures, List.map_cons, hscaled.figure, snap_after, hfigures]
    · rcases List.mem_cons.mp hs with rfl | hs
      · exact hscaled.finite (hlengths command List.mem_cons_self)
      · exact hfinite (fun c hc => hlengths c (List.mem_cons_of_mem _ hc)) s hs

lemma pen_at_origin (scale : ℤ) : Pen.At {} scale {} := by
  have htrack : Track.At {} scale 0 := by
    refine ⟨?_, ?_, ?_⟩
    · rw [Decimal.value_ofInt]
      simp
    · rw [Decimal.value_ofInt, snap_zero]
    · simp
  exact ⟨htrack, htrack, htrack, htrack⟩

lemma snap_origin (scale : ℤ) : Place.snap scale {} = {} := by
  simp [Place.snap, snapPoint, snap_zero]

lemma letters_of_same {commands scaled : List Command}
    (h : List.Forall₂ (fun c s => s = { c with operands := s.operands }) commands scaled) :
    scaled.map Command.letter = commands.map Command.letter := by
  induction h with
  | nil => rfl
  | cons hs _ ih => rw [List.map_cons, List.map_cons, ih, hs]

lemma snapLength_eq {scale : ℤ} {r : ℚ} (h : |snap scale r| ≤ 2 ^ 53) :
    snapLength scale r = snap scale r :=
  (Decimal.toBinary64_integer (Decimal.value_ofInt _) (natAbs_le_of_abs h)).2

namespace Example

def hundredths (n : ℤ) : Binary64 := (⟨decide (n < 0), n.natAbs, -2⟩ : Decimal).toBinary64

end Example

end TersePath
