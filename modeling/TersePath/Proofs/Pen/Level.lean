import TersePath.Proofs.Pen.Lossless
import TersePath.Proofs.Picture.Printed

/-! Scaling by one. Where the pen stays on the grid nothing is lost, and so no value changes, only the
sign of a zero. -/

namespace TersePath

open Picture Binary64

lemma Multiplied.level {command scaled : Command} (h : Multiplied 1 command scaled)
    (hproper : command.Proper) (hinteger : command.Integer) : Level command scaled := by
  have hoperand : ∀ i (hi : i < command.operands.length) (hi' : i < scaled.operands.length),
      scaled.operands[i].Is command.operands[i].value := by
    intro i hi hi'
    have hscaled := h.operand hi hi'
    split at hscaled
    · rw [hscaled]
      exact is_value (hproper.2 _ (List.getElem_mem hi))
    · next hrole =>
      have hx := hinteger _ (Command.mem_scaledOperands.mpr ⟨i, hi, hrole, rfl⟩)
      rwa [shortestValue_of_integer hx, Int.cast_one, one_mul] at hscaled
  refine ⟨by rw [h.same], ⟨?_, fun y hy => ?_⟩, ?_⟩
  · rw [Command.WellFormed, h.length, hproper.1, h.same]
    rfl
  · obtain ⟨i, hi, rfl⟩ := List.mem_iff_getElem.mp hy
    exact (hoperand i (h.length ▸ hi) hi).1
  · refine List.ext_getElem (by simpa using h.length) fun i hi' hi => ?_
    rw [List.length_map] at hi hi'
    simpa using (hoperand i hi hi').2

namespace Picture.Level

variable {command other : Command} {place : Place}

lemma exists_operand (h : Level command other) :
    ∀ y ∈ other.scaledOperands, y.isFinite ∧ ∃ x ∈ command.scaledOperands, y.value = x.value := by
  intro y hy
  obtain ⟨i, hi, hrole, rfl⟩ := Command.mem_scaledOperands.mp hy
  have hlength : other.operands.length = command.operands.length := by
    simpa using congrArg List.length h.values
  have hkind : other.kind = command.kind := congrArg Letter.kind h.letter
  have hvalue : (other.operands[i]).value = (command.operands[i]).value := by
    have hmaps := List.getElem_of_eq h.values (by simpa using hi)
    simpa using hmaps
  exact ⟨h.proper.2 _ (List.getElem_mem hi), _,
    Command.mem_scaledOperands.mpr ⟨i, hlength ▸ hi, hkind ▸ hrole, rfl⟩, hvalue⟩

lemma fit (h : Level command other) (hfit : command.Fit) : other.Fit := by
  refine ⟨fun y hy => ?_, fun habsolute y hy => ?_⟩
  · obtain ⟨hfinite, x, hx, hvalue⟩ := h.exists_operand y hy
    obtain ⟨n, hn, hlt⟩ := hfit.integer x hx
    exact ⟨n, ⟨hfinite, hvalue.trans hn.2⟩, hlt⟩
  · obtain ⟨-, x, hx, hvalue⟩ := h.exists_operand y hy
    have hletter : command.absolute = true := (congrArg Letter.absolute h.letter).symm.trans habsolute
    exact hvalue ▸ hfit.grid hletter x hx

end Picture.Level

lemma level_of_multiplied {commands scaled : List Command}
    (h : List.Forall₂ (Multiplied 1) commands scaled) (hproper : ∀ c ∈ commands, c.Proper)
    (hinteger : ∀ c ∈ commands, c.Integer) : List.Forall₂ Level commands scaled := by
  induction h with
  | nil => exact .nil
  | cons head _ ih =>
    obtain ⟨hcommand, hproper⟩ := List.forall_mem_cons.mp hproper
    obtain ⟨hfirst, hinteger⟩ := List.forall_mem_cons.mp hinteger
    exact .cons (head.level hcommand hfirst) (ih hproper hinteger)

/-- Scaling by one changes no value along a path whose pen stays on the grid. -/
theorem level_scaleFrom {pen : Pen} {place : Place} {commands : List Command} (hat : pen.At 1 place)
    (hgrid : place.OnGrid) (h : Plotted place commands) :
    ∃ scaled, scaleFrom 1 pen commands = (scaled, none) ∧ List.Forall₂ Level commands scaled ∧
      List.Forall₂ (fun c s => s = { c with operands := s.operands }) commands scaled := by
  have hone : ∀ p : Point, ((1 : ℤ) : ℚ) • p = p := fun p => by rw [Int.cast_one, one_smul]
  have hplace : (place.scaled 1).OnGrid := by
    rw [Place.scaled, hone, hone]
    exact hgrid
  have hintegral : place.Integral := ⟨integral_of_onGrid hgrid.1, integral_of_onGrid hgrid.2⟩
  obtain ⟨hread, -, -⟩ := figures_integral h.proper h.integer hintegral
  have hheld : ∀ c ∈ commands, c.HeldBy 1 := by
    intro c hc x hx
    obtain ⟨n, hn, hlt⟩ := h.integer c hc x hx
    exact ⟨n, by rw [shortestValue_of_integer ⟨n, hn, hlt⟩, hn.2, Int.cast_one, one_mul], hlt⟩
  have hnear : ∀ f ∈ figures shortestValue place commands, Near (((1 : ℤ) : ℚ) • f.target) := by
    intro f hf
    rw [hread] at hf
    exact (hone f.target).symm ▸ near_of_onGrid (h.targets f hf)
  obtain ⟨scaled, hscaled, hmultiplied⟩ := multiplied_scaleFrom hat hplace h.proper hheld hnear
  exact ⟨scaled, hscaled, level_of_multiplied hmultiplied h.proper h.integer,
    hmultiplied.imp fun _ _ hc => hc.same⟩

lemma plotted_of_level {place : Place} {commands others : List Command}
    (hlevel : List.Forall₂ Level commands others) (h : Plotted place commands)
    (hfit : ∀ c ∈ commands, c.Fit) : Plotted place others ∧ ∀ c ∈ others, c.Fit := by
  induction hlevel generalizing place with
  | nil => exact ⟨h, hfit⟩
  | @cons command other _ _ head _ ih =>
    obtain ⟨⟨hproper, -, hend⟩, hrest⟩ := plotted_cons.mp h
    obtain ⟨hfirst, hlater⟩ := List.forall_mem_cons.mp hfit
    have hstep : place.step other = place.step command := by
      rw [Place.step, Place.step, head.figure hproper]
    obtain ⟨hplotted, hfits⟩ := ih (hstep ▸ hrest) hlater
    have hother := head.fit hfirst
    exact ⟨plotted_cons.mpr ⟨⟨head.proper, hother.integer, hstep ▸ hend⟩, hplotted⟩,
      List.forall_mem_cons.mpr ⟨hother, hfits⟩⟩

end TersePath
