import TersePath.Proofs.Path.Akin
import TersePath.Proofs.Path.Terse
import TersePath.Path.Serialize

/-! Commands that stand for others. Where a kept spelling has been printed, it is read back as another
command than the one that the rules had left: a curve for a line, a slanted line for one along an axis, a
first control point at the pen where there was none, or none where there was one. The rules lead each of
these towards the command that it stands for, or leave it alone. -/

namespace TersePath

open Binary64 Edit

def Command.CameAs (command : Command) (kind : Kind) : Prop :=
  ∃ text ∈ command.absoluteText, ∃ absolute, text.head? = some (Letter.char ⟨kind, absolute⟩)

def Command.Free (previous : Option Command) (command : Command) : Prop :=
  command.kind = .cubic ∨ (∃ b ∈ previous, b.kind.isCubic = false) ∨ command.CameAs .cubic

/-- A command between its neighbours that gives the rules nothing to do. -/
structure Spent (previous : Option Command) (command : Command) (next : Option Command) : Prop where
  proper : command.Proper
  straight : ∀ c, command.curve? = some c → command.Free previous →
    ¬(c.straight ∧ canFlatten command next)
  dropped : ∀ c, command.curve? = some c → command.Free previous →
    ¬(c.still ∧ canDrop previous command next)
  axial : ∀ c, command.curve? = some c → command.Free previous → ¬(c.axial ∧ canFlatten command next)
  contracted : Still contractSmooth previous command next
  flat : command.flat = command
  merged : Still mergeAxis previous command next
  fresh : command.kind = .move → ∃ d ∈ next, d.isBreak = false
  short : command.isRelative .cubic → command.CameAs .smoothCubic →
    ∃ b ∈ previous, b.kind.isCubic = false ∧ isRelativeLine b = false

/-- What may stand for a command after `previous`. Smooth cubics for others are found only early, slanted
lines for others only as long as there are `slopes`. -/
inductive Variant (early slopes : Prop) (previous : Option Command) (command other : Command) : Prop
  | level (h : Akin command other)
  | slanted (hslopes : slopes) (hline : other.isRelative .line) (h : Akin command other.flat)
  | curve (c : Cubic) (hc : other.curve? = some c) (hend : ¬(c.x.isZero ∧ c.y.isZero))
      (h : Akin command (other.reshape .line [c.x, c.y]).flat)
  | spelled (x1 y1 : Binary64) (rest : List Binary64) (hcubic : other.isRelative .cubic)
      (ho : other.operands = x1 :: y1 :: rest) (hx : x1.isZero) (hy : y1.isZero)
      (h : Akin command (other.reshape .smoothCubic rest)) (hpen : reflectsPen previous .smoothCubic)
      (hfree : command.Free previous)
  | shortened (hearly : early) (hsmooth : other.isRelative .smoothCubic)
      (h : Akin command (other.reshape .cubic (.zero :: .zero :: other.operands)))
      (hplain : ∃ b ∈ previous, b.kind.isCubic = false ∧ isRelativeLine b = false)

section Line

variable {command other : Command} {a b : Binary64}

lemma kind_of_isRelativeLine (h : isRelativeLine command) :
    command.kind = .line ∨ command.kind = .horizontal ∨ command.kind = .vertical := by
  rw [isRelativeLine, Bool.or_eq_true, Bool.or_eq_true, or_assoc] at h
  exact h.imp kind_of_isRelative (Or.imp kind_of_isRelative kind_of_isRelative)

lemma isRelativeLine_reshape (command : Command) (operands : List Binary64) :
    isRelativeLine (command.reshape .line operands).flat := by
  rw [isRelativeLine_flat]
  rfl

lemma isRelativeLine_of_line (h : command.isRelative .line) : isRelativeLine command := by
  rw [isRelativeLine, h]
  rfl

lemma not_isCubic_of_line (h : isRelativeLine command) : command.kind.isCubic = false := by
  rcases kind_of_isRelativeLine h with hk | hk | hk <;> rw [hk] <;> rfl

lemma not_line_of_isCubic (h : command.kind.isCubic) : isRelativeLine command = false :=
  Bool.eq_false_iff.mpr fun hline => Bool.false_ne_true ((not_isCubic_of_line hline).symm.trans h)

lemma reflectsPen_of_line (h : isRelativeLine command) (follower : Kind) :
    reflectsPen (some command) follower := by
  rcases kind_of_isRelativeLine h with hk | hk | hk <;>
    cases follower <;> simp [reflectsPen, hk, Kind.isCubic, Kind.isQuadratic]

lemma reflectsPen_of_isCubic (h : command.kind.isCubic) (follower : Kind) :
    reflectsPen (some command) follower = (follower != .smoothCubic || command.endsAtControl) := by
  have hplain : command.kind.isQuadratic = false := by
    rw [Kind.isCubic, Bool.or_eq_true, beq_iff_eq, beq_iff_eq] at h
    rcases h with hk | hk <;> rw [hk] <;> rfl
  cases follower <;> simp [reflectsPen, h, hplain]

lemma not_follower_of_line (h : isRelativeLine command) : Command.follower? (some command) = none := by
  rcases kind_of_isRelativeLine h with hk | hk | hk <;> simp [Command.follower?, hk, Kind.isSmooth]

lemma follower_of_cubic (h : command.kind = .cubic) : Command.follower? (some command) = none := by
  simp [Command.follower?, h, Kind.isSmooth]

lemma follower_of_smooth (h : command.kind = .smoothCubic) :
    Command.follower? (some command) = some .smoothCubic := by
  simp [Command.follower?, h, Kind.isSmooth]

lemma flat_reshape (command : Command) (a b : Binary64) :
    (command.reshape .line [a, b]).flat =
      if b.isZero then command.reshape .horizontal [a]
      else if a.isZero then command.reshape .vertical [b]
      else command.reshape .line [a, b] := by
  rw [Command.flat, lineToAxis]
  cases hb : b.isZero <;> cases ha : a.isZero <;> simp [Command.reshape, Command.isRelative, ha, hb]

lemma endsAtControl_congr (h : other.operands.reverse.take 4 = command.operands.reverse.take 4) :
    other.endsAtControl = command.endsAtControl := by
  rw [Command.endsAtControl, Command.endsAtControl]
  generalize other.operands.reverse = xs at h
  generalize command.operands.reverse = ys at h
  rcases xs with _ | ⟨_, _ | ⟨_, _ | ⟨_, _ | ⟨_, xs⟩⟩⟩⟩ <;>
    rcases ys with _ | ⟨_, _ | ⟨_, _ | ⟨_, _ | ⟨_, ys⟩⟩⟩⟩ <;> simp_all

lemma Akin.congr (h : Akin command other) {third : Command} (hletter : third.letter = other.letter)
    (ho : third.operands = other.operands) : Akin command third := by
  have hkind : third.kind = other.kind := congrArg Letter.kind hletter
  refine ⟨hkind.trans h.kind, fun hclose => hletter.trans (h.letter hclose), h.first, ?_, ?_⟩
  · rw [Command.Proper, Command.WellFormed, ho, hkind]
    exact h.second
  · rw [ho]
    exact h.values

end Line

section Pair

variable {early slopes : Prop} {previous before : Option Command} {command other : Command}

lemma endsAtControl_smooth {x1 y1 : Binary64} {rest : List Binary64}
    (ho : other.operands = x1 :: y1 :: rest) (h : Akin command (other.reshape .smoothCubic rest)) :
    other.endsAtControl = command.endsAtControl := by
  rw [← h.endsAtControl]
  refine endsAtControl_congr ?_
  obtain ⟨x2, y2, x, y, rfl⟩ := exists_of_length_four h.second.1
  rw [ho]
  rfl

lemma endsAtControl_cubic (hsmooth : other.operands.length = 4) {x1 y1 : Binary64}
    (h : Akin command (other.reshape .cubic (x1 :: y1 :: other.operands))) :
    other.endsAtControl = command.endsAtControl := by
  rw [← h.endsAtControl]
  refine (endsAtControl_congr ?_).symm
  obtain ⟨x2, y2, x, y, ho⟩ := exists_of_length_four hsmooth
  rw [Command.reshape, ho]
  rfl

lemma length_of_cubic {x1 y1 : Binary64} {operands : List Binary64}
    (h : Akin command (other.reshape .cubic (x1 :: y1 :: operands))) : operands.length = 4 := by
  have hlength : operands.length + 1 + 1 = 6 := h.second.1
  omega

namespace Variant

lemma mono {early' slopes' : Prop} (h : Variant early slopes previous command other)
    (hearly : early → early') (hslopes : slopes → slopes') :
    Variant early' slopes' previous command other := by
  cases h with
  | level h => exact .level h
  | slanted hslope hline h => exact .slanted (hslopes hslope) hline h
  | curve c hc hend h => exact .curve c hc hend h
  | spelled x1 y1 rest hcubic ho hx hy h hpen hfree =>
    exact .spelled x1 y1 rest hcubic ho hx hy h hpen hfree
  | shortened hearly' hsmooth h hplain => exact .shortened (hearly hearly') hsmooth h hplain

lemma pens (h : Variant early slopes previous command other) {follower : Kind}
    (hpen : reflectsPen (some other) follower) : reflectsPen (some command) follower := by
  cases h with
  | level h => exact (h.pens follower).symm.trans hpen
  | slanted _ hline h =>
    exact reflectsPen_of_line (h.isRelativeLine.symm.trans
      ((isRelativeLine_flat other).trans (isRelativeLine_of_line hline))) follower
  | curve c _ _ h =>
    exact reflectsPen_of_line (h.isRelativeLine.symm.trans (isRelativeLine_reshape other _)) follower
  | spelled x1 y1 rest hcubic ho _ _ h =>
    have hother : other.kind.isCubic := by
      rw [kind_of_isRelative hcubic]
      rfl
    have hcommand : command.kind.isCubic := by
      rw [← h.kind]
      rfl
    rwa [reflectsPen_of_isCubic hcommand, ← endsAtControl_smooth ho h, ← reflectsPen_of_isCubic hother]
  | shortened _ hsmooth h =>
    have hother : other.kind.isCubic := by
      rw [kind_of_isRelative hsmooth]
      rfl
    have hcommand : command.kind.isCubic := by
      rw [← h.kind]
      rfl
    rwa [reflectsPen_of_isCubic hcommand, ← endsAtControl_cubic (length_of_cubic h) h,
      ← reflectsPen_of_isCubic hother]

lemma line (h : Variant early slopes previous command other) (hline : isRelativeLine other) :
    isRelativeLine command := by
  cases h with
  | level h => exact h.isRelativeLine.symm.trans hline
  | slanted _ _ h => exact h.isRelativeLine.symm.trans ((isRelativeLine_flat other).trans hline)
  | curve c _ _ h => exact h.isRelativeLine.symm.trans (isRelativeLine_reshape other _)
  | spelled x1 y1 rest hcubic =>
    rcases kind_of_isRelativeLine hline with hk | hk | hk
    all_goals cases hk.symm.trans (kind_of_isRelative hcubic)
  | shortened _ hsmooth =>
    rcases kind_of_isRelativeLine hline with hk | hk | hk
    all_goals cases hk.symm.trans (kind_of_isRelative hsmooth)

lemma plain (h : Variant early slopes previous command other) (hplain : other.kind.isCubic = false) :
    command.kind.isCubic = false := by
  cases h with
  | level h => rwa [← h.kind]
  | slanted _ hline h =>
    exact not_isCubic_of_line (h.isRelativeLine.symm.trans
      ((isRelativeLine_flat other).trans (isRelativeLine_of_line hline)))
  | curve c hc => cases hplain.symm.trans (isCubic_of_curve hc)
  | spelled x1 y1 rest hcubic =>
    rw [kind_of_isRelative hcubic] at hplain
    cases hplain
  | shortened _ hsmooth =>
    rw [kind_of_isRelative hsmooth] at hplain
    cases hplain

lemma plain_of_plain (h : Variant early slopes previous command other)
    (hplain : command.kind.isCubic = false) (hline : isRelativeLine command = false) :
    other.kind.isCubic = false := by
  cases h with
  | level h => rwa [h.kind]
  | slanted _ hslanted => exact not_isCubic_of_line (isRelativeLine_of_line hslanted)
  | curve c _ _ h =>
    cases hline.symm.trans (h.isRelativeLine.symm.trans (isRelativeLine_reshape other _))
  | spelled x1 y1 rest _ _ _ _ h =>
    rw [← h.kind] at hplain
    cases hplain
  | shortened _ _ h =>
    rw [← h.kind] at hplain
    cases hplain

lemma follower (h : Variant early slopes previous command other) {follower : Kind}
    (hfollower : Command.follower? (some command) = some follower) :
    Command.follower? (some other) = some follower ∨ follower = .smoothCubic ∧
      reflectsPen previous .smoothCubic ∧ other.isRelative .cubic ∧
      ∃ x1 y1 rest, other.operands = x1 :: y1 :: rest ∧ x1.isZero ∧ y1.isZero := by
  have hnone : ∀ {line : Command}, isRelativeLine line → Akin command line → False := by
    intro line hline hakin
    cases (not_follower_of_line (hakin.isRelativeLine.symm.trans hline)).symm.trans hfollower
  cases h with
  | level h => exact Or.inl (h.follower.trans hfollower)
  | slanted _ hline h =>
    exact absurd h (hnone ((isRelativeLine_flat other).trans (isRelativeLine_of_line hline)))
  | curve c _ _ h => exact absurd h (hnone (isRelativeLine_reshape other _))
  | spelled x1 y1 rest hcubic ho hx hy h hpen =>
    rw [follower_of_smooth h.kind.symm] at hfollower
    exact Or.inr ⟨(Option.some.inj hfollower).symm, hpen, hcubic, x1, y1, rest, ho, hx, hy⟩
  | shortened _ _ h => cases (follower_of_cubic h.kind.symm).symm.trans hfollower

lemma curves (h : Variant early slopes previous command other) {d : Cubic}
    (hd : other.curve? = some d) (hopen : other.kind = .cubic ∨ ∃ b ∈ previous, b.kind.isCubic = false) :
    (∃ c, command.curve? = some c ∧ c.Twins d ∧ command.Free previous) ∨
      ¬(d.x.isZero ∧ d.y.isZero) ∧ Akin command (other.reshape .line [d.x, d.y]).flat := by
  cases h with
  | level h =>
    obtain ⟨c, hc, htwins⟩ := h.symm.curve hd
    refine Or.inl ⟨c, hc, ?_, ?_⟩
    · exact ⟨htwins.x1.symm, htwins.y1.symm, htwins.x2.symm, htwins.y2.symm, htwins.x.symm,
        htwins.y.symm⟩
    · exact hopen.imp (fun hk => h.kind.symm.trans hk) Or.inl
  | slanted _ hline =>
    have hcubic := isCubic_of_curve hd
    rw [kind_of_isRelative hline] at hcubic
    cases hcubic
  | curve c hc hend h =>
    obtain rfl := Option.some.inj (hc.symm.trans hd)
    exact Or.inr ⟨hend, h⟩
  | spelled x1 y1 rest hcubic ho hx hy h hpen hfree =>
    obtain ⟨x2, y2, x, y, hrest⟩ := exists_of_length_four h.second.1
    obtain rfl : rest = [x2, y2, x, y] := hrest
    have hown : other.curve? = some ⟨x1, y1, x2, y2, x, y⟩ := curve_of_cubic hcubic ho
    obtain rfl := Option.some.inj (hown.symm.trans hd)
    obtain ⟨c, hc, htwins⟩ := h.symm.curve (curve_of_smooth (by rfl) rfl)
    refine Or.inl ⟨c, hc, ?_, hfree⟩
    exact ⟨htwins.x1.symm.trans (Or.inr ⟨rfl, hx⟩), htwins.y1.symm.trans (Or.inr ⟨rfl, hy⟩),
      htwins.x2.symm, htwins.y2.symm, htwins.x.symm, htwins.y.symm⟩
  | shortened _ hsmooth h =>
    obtain ⟨x2, y2, x, y, ho⟩ := exists_of_length_four (length_of_cubic h)
    have hown := curve_of_smooth hsmooth ho
    obtain rfl := Option.some.inj (hown.symm.trans hd)
    obtain ⟨c, hc, htwins⟩ := h.symm.curve (c := ⟨.zero, .zero, x2, y2, x, y⟩)
      (curve_of_cubic (by rfl) (congrArg (fun os => Binary64.zero :: .zero :: os) ho))
    refine Or.inl ⟨c, hc, ?_, Or.inl h.kind.symm⟩
    exact ⟨htwins.x1.symm, htwins.y1.symm, htwins.x2.symm, htwins.y2.symm, htwins.x.symm,
      htwins.y.symm⟩

end Variant

end Pair

end TersePath
