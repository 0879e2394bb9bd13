import TersePath.Proofs.Pen.Relative

/-! Scaling leaves integers. A scaled coordinate is a difference of rounded positions, and these have no
digits after the point whatever the exact positions are. Below `2 ^ 52` the number is that integer. -/

namespace TersePath

open Picture Binary64

namespace Decimal

lemma exponent_rounded (x : Decimal) : x.exponent ≤ x.rounded.exponent := by
  simp only [rounded]
  split
  · exact le_rfl
  · simp

lemma exponent_add {x y : Decimal} (hx : 0 ≤ x.exponent) (hy : 0 ≤ y.exponent) :
    0 ≤ (x + y).exponent := by
  obtain ⟨z, hz, -, hexponent⟩ := exists_add x y
  rw [hz]
  exact (hexponent ▸ le_min hx hy).trans (exponent_rounded z)

lemma exponent_sub {x y : Decimal} (hx : 0 ≤ x.exponent) (hy : 0 ≤ y.exponent) :
    0 ≤ (x - y).exponent :=
  exponent_add hx (y := y.neg) hy

lemma exponent_ofInt (n : ℤ) : 0 ≤ (ofInt n).exponent := le_rfl

end Decimal

lemma onAxis_toBinary64 {d : Decimal} (hd : 0 ≤ d.exponent) (hfinite : d.toBinary64.isFinite)
    (hsmall : |d.toBinary64.value| < 2 ^ 52) : OnAxis d.toBinary64.value := by
  obtain ⟨w, hw⟩ := exists_integer_of_exponent hd
  obtain ⟨his, -⟩ := toBinary64_small hw hfinite (hsmall.trans (by norm_num))
  rw [his.2, ← Int.cast_abs] at hsmall
  exact ⟨w, his.2, by exact_mod_cast hsmall⟩

/-- A pen whose rounded positions have no digits after the point. -/
structure Pen.Whole (pen : Pen) : Prop where
  x : 0 ≤ pen.x.rounded.exponent
  y : 0 ≤ pen.y.rounded.exponent
  startX : 0 ≤ pen.startX.rounded.exponent
  startY : 0 ≤ pen.startY.rounded.exponent

lemma whole_origin : Pen.Whole {} := ⟨le_rfl, le_rfl, le_rfl, le_rfl⟩

namespace Pen.Whole

variable {scale : ℤ} {pen moved : Pen}

lemma get (h : pen.Whole) (axis : Axis) : 0 ≤ (pen.get axis).rounded.exponent := by
  cases axis with
  | x => exact h.x
  | y => exact h.y

lemma set (h : pen.Whole) (axis : Axis) {track : Track} (htrack : 0 ≤ track.rounded.exponent) :
    (pen.set axis track).Whole := by
  cases axis with
  | x => exact ⟨htrack, h.y, h.startX, h.startY⟩
  | y => exact ⟨h.x, htrack, h.startX, h.startY⟩

lemma follow (h : pen.Whole) {before after : Command} {axis : Axis}
    (hmoved : pen.follow scale before after axis = .ok moved) : moved.Whole := by
  rw [Pen.follow] at hmoved
  split at hmoved
  · split at hmoved
    · cases hmoved
    · split at hmoved
      · obtain rfl := Except.ok.inj hmoved
        exact h.set axis (Decimal.exponent_ofInt _)
      · obtain rfl := Except.ok.inj hmoved
        exact h.set axis (Decimal.exponent_add (h.get axis) (Decimal.exponent_ofInt _))
  · obtain rfl := Except.ok.inj hmoved
    exact h

lemma follow_both (h : pen.Whole) {before after : Command}
    (hmoved : (pen.follow scale before after .x).bind (fun half => half.follow scale before after .y) =
      .ok moved) : moved.Whole := by
  cases hx : pen.follow scale before after .x with
  | error fault =>
    rw [hx] at hmoved
    cases hmoved
  | ok half =>
    rw [hx] at hmoved
    exact (h.follow hx).follow hmoved

lemma close (h : pen.Whole) : pen.close.Whole := ⟨h.startX, h.startY, h.startX, h.startY⟩

lemma markStart (h : pen.Whole) : pen.markStart.Whole := ⟨h.x, h.y, h.x, h.y⟩

lemma exists_scaleOperand (h : pen.Whole) (scale : ℤ) (absolute : Bool) {role : Role}
    (hrole : role ≠ .unscaled) (x : Binary64) :
    ∃ d : Decimal, 0 ≤ d.exponent ∧ scaleOperand scale pen absolute role x = d.toBinary64 := by
  simp only [scaleOperand]
  split
  · exact absurd rfl hrole
  · exact ⟨_, Decimal.exponent_ofInt _, rfl⟩
  · next axis =>
    split
    · exact ⟨_, Decimal.exponent_ofInt _, rfl⟩
    · exact ⟨_, Decimal.exponent_sub (Decimal.exponent_ofInt _) (h.get axis), rfl⟩

end Pen.Whole

lemma roundScaled_of_not_finite {x : Binary64} (h : x.isFinite = false) (scale : ℤ) :
    x.roundScaled scale = x := by
  cases x with
  | finite s n hn => cases h
  | infinite s => rfl
  | nan => rfl

def Command.Small (command : Command) : Prop :=
  ∀ x ∈ command.scaledOperands, x.isFinite = true ∧ |x.value| < 2 ^ 52

instance (command : Command) : Decidable command.Small :=
  inferInstanceAs (Decidable (∀ x ∈ command.scaledOperands, _ ∧ _))

section Command

variable {scale : ℤ} {pen moved : Pen} {command scaled : Command}

lemma finite_of_small {f : Role → Binary64 → Binary64}
    (hf : ∀ role x, role ≠ .unscaled → x.isFinite = false → f role x = x)
    (hsmall : (command.mapOperands f).Small) : command.scaledOperands.all Binary64.isFinite = true := by
  rw [List.all_eq_true]
  intro x hx
  by_contra hne
  obtain ⟨i, hi, hrole, rfl⟩ := Command.mem_scaledOperands.mp hx
  have hfix := hf (command.kind.role i) _ hrole (Bool.eq_false_iff.mpr hne)
  have hmem : command.operands[i] ∈ (command.mapOperands f).scaledOperands := by
    refine Command.mem_scaledOperands.mpr ⟨i, by simpa [Command.mapOperands] using hi, hrole, ?_⟩
    simpa [Command.mapOperands] using hfix
  exact hne (hsmall _ hmem).1

lemma onGrid_scaledBy (hpen : pen.Whole) (hsmall : (command.scaledBy scale pen).Small) :
    (command.scaledBy scale pen).OnGrid := by
  intro y hy
  obtain ⟨hfinite, hlt⟩ := hsmall y hy
  obtain ⟨i, hi, hrole, rfl⟩ := Command.mem_scaledOperands.mp hy
  have hi' : i < command.operands.length := by
    rwa [Command.scaledBy, Command.mapOperands, List.length_mapIdx] at hi
  obtain ⟨d, hd, hscaled⟩ := hpen.exists_scaleOperand scale command.absolute hrole
    command.operands[i]
  have hoperand : (command.scaledBy scale pen).operands[i] = d.toBinary64 := by
    rw [← hscaled]
    simp [Command.scaledBy, Command.mapOperands, Command.kind]
  rw [hoperand] at hfinite hlt ⊢
  exact onAxis_toBinary64 hd hfinite hlt

/-- What scaling leaves of a command, where it goes well and what is left is small. -/
theorem scaleCommand_whole (hpen : pen.Whole) (hwell : command.WellFormed)
    (h : scaleCommand scale pen command = (scaled, .ok moved)) (hsmall : scaled.Small) :
    moved.Whole ∧ scaled.OnGrid ∧ scaled.WellFormed ∧
      scaled = { command with operands := scaled.operands } := by
  rw [scaleCommand] at h
  split at h
  · next hclose =>
    obtain ⟨rfl, hmoved⟩ := Prod.mk.inj h
    obtain rfl := Except.ok.inj hmoved
    refine ⟨hpen.close, ?_, hwell, rfl⟩
    have hnone : command.operands = [] := by
      rw [Command.WellFormed, hclose] at hwell
      exact List.length_eq_zero_iff.mp hwell
    intro x hx
    obtain ⟨i, hi, -⟩ := Command.mem_scaledOperands.mp hx
    simp [hnone] at hi
  · split at h
    · obtain ⟨hscaled, hmoved⟩ := Prod.mk.inj h
      have hlength : scaled.WellFormed := by
        rw [← hscaled]
        exact (List.length_mapIdx ..).trans hwell
      refine ⟨?_, ?_, hlength, by rw [← hscaled]; rfl⟩
      · split at hmoved
        · cases hboth : (pen.follow scale command
            (command.mapOperands (scaleOperand scale pen command.absolute)) .x).bind fun half =>
              half.follow scale command
                (command.mapOperands (scaleOperand scale pen command.absolute)) .y with
          | error fault =>
            rw [hboth] at hmoved
            cases hmoved
          | ok after =>
            rw [hboth] at hmoved
            obtain rfl := Except.ok.inj hmoved
            exact (hpen.follow_both hboth).markStart
        · exact hpen.follow_both hmoved
      · subst hscaled
        exact onGrid_scaledBy hpen hsmall
    · next hall =>
      obtain ⟨rfl, -⟩ := Prod.mk.inj h
      refine absurd (finite_of_small (fun role x hrole hx => ?_) hsmall) hall
      rw [if_neg hrole, roundScaled_of_not_finite hx]

end Command

theorem scaleFrom_whole {scale : ℤ} {pen : Pen} {commands scaled : List Command} (hpen : pen.Whole)
    (hwell : ∀ c ∈ commands, c.WellFormed) (h : scaleFrom scale pen commands = (scaled, none))
    (hsmall : ∀ s ∈ scaled, s.Small) : (∀ s ∈ scaled, s.OnGrid ∧ s.WellFormed) ∧
      List.Forall₂ (fun c s => s = { c with operands := s.operands }) commands scaled := by
  induction commands generalizing pen scaled with
  | nil =>
    obtain ⟨rfl, -⟩ := Prod.mk.inj h
    exact ⟨by simp, .nil⟩
  | cons command rest ih =>
    obtain ⟨hcommand, hrest⟩ := List.forall_mem_cons.mp hwell
    rcases hstep : scaleCommand scale pen command with ⟨first, fault | moved⟩
    · simp only [scaleFrom, hstep] at h
      cases (Prod.mk.inj h).2
    · simp only [scaleFrom, hstep] at h
      obtain ⟨rfl, hnone⟩ := Prod.mk.inj h
      obtain ⟨hfirst, hothers⟩ := List.forall_mem_cons.mp hsmall
      obtain ⟨hmoved, hgrid, hlength, hsame⟩ := scaleCommand_whole hpen hcommand hstep hfirst
      obtain ⟨hall, hsames⟩ := ih hmoved hrest (Prod.ext rfl hnone) hothers
      exact ⟨List.forall_mem_cons.mpr ⟨⟨hgrid, hlength⟩, hall⟩, .cons hsame hsames⟩

end TersePath
