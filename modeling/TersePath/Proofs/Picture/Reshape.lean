import TersePath.Proofs.Picture.Sweep

/-! Commands that take another shape. A curve that is seen as a line may become one if the next command
does not reflect it, and a first control point at the pen may be written or not. -/

namespace TersePath.Picture

open Hand (Agree Fits)

variable {hand : Hand} {previous next : Option Command} {command other : Command}

lemma same_figure (h : hand.figure other = hand.figure command) :
    Same hand [other] [command] next := by
  refine same_replace ?_ ?_
  · rw [Hand.sight, Hand.sight, h]
  · rw [Hand.after, Hand.after, h]
    exact Agree.refl _ _

lemma lead_of_follower {hand : Hand} (hp : ∀ c ∈ previous, c.Proper) (hfit : Fits hand previous)
    (h : (Command.follower? next).all (reflectsPen previous)) :
    ∀ kind, Command.follower? next = some kind → hand.lead kind = hand.point := by
  intro kind hk
  rw [hk, Option.all_some] at h
  exact Hand.lead_of_reflectsPen hp hfit h

lemma lead_of_canFlatten (hp : command.Proper) (h : canFlatten command next) :
    ∀ kind, Command.follower? next = some kind →
      (hand.after command).lead kind = (hand.after command).point := by
  have hprevious : ∀ c ∈ some command, c.Proper := fun c hc => Option.mem_some_iff.mp hc ▸ hp
  exact lead_of_follower hprevious ⟨hand, rfl⟩ h

lemma same_line {first : Option Point} {q p : Point} (hp : command.Proper)
    (hflat : canFlatten command next) (hother : hand.figure other = .line p)
    (hcommand : hand.figure command = .cubic first q p)
    (hseen : (Stroke.cubic hand.point (first.getD hand.cubicLead) q p).seen =
      (Stroke.line hand.point p).seen) : Same hand [other] [command] next := by
  refine same_replace ?_ ?_
  · simp only [Hand.sight, hother, hcommand, Hand.marks, List.filterMap_cons, Mark.seen, hseen]
  · refine Hand.agree_of_point ?_ (fun kind _ => ?_) (lead_of_canFlatten hp hflat)
    · simp only [Hand.after, hother, hcommand, Hand.follow, Place.after, Figure.target]
    · exact Hand.lead_of_control_none (by simp only [Hand.after, hother, Hand.follow, Hand.leaves]) kind

lemma same_cubic {first first' : Option Point} {q p : Point}
    (hother : hand.figure other = .cubic first q p)
    (hcommand : hand.figure command = .cubic first' q p)
    (hfirst : first.getD hand.cubicLead = first'.getD hand.cubicLead) :
    Same hand [other] [command] next := by
  refine same_replace ?_ ?_
  · simp only [Hand.sight, hother, hcommand, Hand.marks, hfirst]
  · simp only [Hand.after, hother, hcommand, Hand.follow, Place.after, Figure.target, Hand.leaves]
    exact Agree.refl _ _

lemma proper_reshape {kind : Kind} {operands : List Binary64} (hlength : operands.length = kind.arity)
    (hfinite : ∀ x ∈ operands, x.isFinite) : (command.reshape kind operands).Proper :=
  ⟨hlength, hfinite⟩

structure Reshapes (hand : Hand) (command other : Command) (next : Option Command) : Prop where
  reshaped : ∃ kind operands, other = command.reshape kind operands
  proper : other.Proper
  respells : Respells hand command other
  settled : Settled hand command
  guard : (hand.figure command).isCubic → (hand.figure other).isCubic ∨ canFlatten command next

lemma settled_of_cubic {first : Option Point} {q p : Point}
    (h : hand.figure command = .cubic first q p)
    (hlead : first.getD hand.cubicLead = first.getD hand.point) : Settled hand command := by
  intro first' q' p' h'
  obtain ⟨rfl, -, -⟩ := Figure.cubic.inj (h.symm.trans h')
  exact hlead

lemma settled_of_line {p : Point} (h : hand.figure command = .line p) : Settled hand command := by
  intro first q p' h'
  cases h.symm.trans h'

lemma reshapes_flat {kind : Kind} {operands : List Binary64} {first : Option Point} {q p : Point}
    (hproper : (command.reshape kind operands).Proper) (hflat : canFlatten command next)
    (hother : hand.figure (command.reshape kind operands) = .line p)
    (hcommand : hand.figure command = .cubic first q p)
    (hlead : first.getD hand.cubicLead = first.getD hand.point)
    (hseen : (Stroke.cubic hand.point (first.getD hand.cubicLead) q p).seen =
      (Stroke.line hand.point p).seen) :
    Reshapes hand command (command.reshape kind operands) next := by
  rw [hlead] at hseen
  exact ⟨⟨kind, operands, rfl⟩, hproper, .flat hcommand hother hseen, settled_of_cubic hcommand hlead,
    fun _ => Or.inr hflat⟩

lemma reshapes_curved {kind : Kind} {operands : List Binary64} {first first' : Option Point}
    {q p : Point} (hproper : (command.reshape kind operands).Proper)
    (hother : hand.figure (command.reshape kind operands) = .cubic first' q p)
    (hcommand : hand.figure command = .cubic first q p)
    (hfirst : first.getD hand.point = hand.point) (hlead : first.getD hand.cubicLead = hand.point)
    (hlead' : first'.getD hand.cubicLead = hand.point) :
    Reshapes hand command (command.reshape kind operands) next := by
  refine ⟨⟨kind, operands, rfl⟩, hproper, .curved hcommand hother hfirst hlead',
    settled_of_cubic hcommand (hlead.trans hfirst.symm), fun _ => Or.inl ?_⟩
  rw [hother]
  rfl

lemma reshapes_line {kind : Kind} {operands : List Binary64} {p : Point}
    (hproper : (command.reshape kind operands).Proper)
    (hother : hand.figure (command.reshape kind operands) = .line p)
    (hcommand : hand.figure command = .line p) :
    Reshapes hand command (command.reshape kind operands) next := by
  refine ⟨⟨kind, operands, rfl⟩, hproper, .same (hcommand.trans hother.symm), settled_of_line hcommand,
    fun hcubic => ?_⟩
  rw [hcommand] at hcubic
  cases hcubic

lemma Reshapes.same (h : Reshapes hand command other next) (hp : command.Proper) :
    Same hand [other] [command] next := by
  cases h.respells with
  | same hfigure => exact same_figure hfigure.symm
  | flat hcommand hother hseen =>
    have hflat : canFlatten command next := by
      have hguard := h.guard
      rw [hcommand, hother] at hguard
      simpa [Figure.isCubic] using hguard
    rw [← h.settled _ _ _ hcommand] at hseen
    exact same_line hp hflat hother hcommand hseen
  | curved hcommand hother hfirst hlead =>
    exact same_cubic hother hcommand (hlead.trans ((h.settled _ _ _ hcommand).trans hfirst).symm)

lemma sound_replace (hprevious : ∀ c ∈ previous, c.Proper) (hcommand : command.Proper)
    (h : Reshapes (hand.afterAll previous.toList) command other next) :
    Sound hand previous command next (.replace other) := by
  refine ⟨(h.same hcommand).append_left, fun c hc => ?_, fun spaced hkeeps => ?_⟩
  · simp only [Edit.outcome, List.mem_append, Option.mem_toList, List.mem_singleton] at hc
    rcases hc with hc | rfl
    · exact hprevious c hc
    · exact h.proper
  · obtain ⟨hfront, hkeeps, -⟩ := keepsAll_append.mp hkeeps
    obtain ⟨kind, operands, rfl⟩ := h.reshaped
    exact keepsAll_append.mpr ⟨hfront, hkeeps.reshape h.settled h.respells, trivial⟩

end TersePath.Picture
