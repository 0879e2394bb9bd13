import TersePath.Proofs.Path.Exact
import TersePath.Proofs.Picture.Lead
import TersePath.Path.Spelling

/-! Kept spellings. A command may keep the spelling that it came with. Where the rules turn it into
another kind of segment, the kept spelling still shows the same, provided that its own first control
point is the pen. -/

namespace TersePath

namespace Picture

open Hand (Agree Fits)

/-- How an origin may differ from what has become of it: a curve may be seen as a line, and a first
control point at the pen may be written or not. -/
inductive Respells (hand : Hand) (origin command : Command) : Prop
  | same (h : hand.figure origin = hand.figure command)
  | flat {first : Option Point} {q p : Point} (horigin : hand.figure origin = .cubic first q p)
      (hcommand : hand.figure command = .line p)
      (hseen : (Stroke.cubic hand.point (first.getD hand.point) q p).seen =
        (Stroke.line hand.point p).seen)
  | curved {first first' : Option Point} {q p : Point}
      (horigin : hand.figure origin = .cubic first q p)
      (hcommand : hand.figure command = .cubic first' q p)
      (hfirst : first.getD hand.point = hand.point)
      (hlead : first'.getD hand.cubicLead = hand.point)

/-- A smooth cubic only where there is nothing to reflect. -/
def Settled (hand : Hand) (command : Command) : Prop :=
  ∀ first q p, hand.figure command = .cubic first q p →
    first.getD hand.cubicLead = first.getD hand.point

lemma Respells.trans {hand : Hand} {origin command other : Command}
    (h : Respells hand origin command) (hsettled : Settled hand command)
    (h' : Respells hand command other) : Respells hand origin other := by
  cases h with
  | same horigin =>
    cases h' with
    | same hother => exact .same (horigin.trans hother)
    | flat hcommand hother hseen => exact .flat (horigin.trans hcommand) hother hseen
    | curved hcommand hother hfirst hlead => exact .curved (horigin.trans hcommand) hother hfirst hlead
  | flat horigin hcommand hseen =>
    cases h' with
    | same hother => exact .flat horigin (hother.symm.trans hcommand) hseen
    | flat hcubic => cases hcommand.symm.trans hcubic
    | curved hcubic => cases hcommand.symm.trans hcubic
  | curved horigin hcommand hfirst hlead =>
    cases h' with
    | same hother => exact .curved horigin (hother.symm.trans hcommand) hfirst hlead
    | flat hcubic hother hseen =>
      have hpen := (hsettled _ _ _ hcommand).symm.trans hlead
      cases hcommand.symm.trans hcubic
      exact .flat horigin hother (by rw [hfirst, ← hseen, hpen])
    | curved hcubic hother _ hlead' =>
      cases hcommand.symm.trans hcubic
      exact .curved horigin hother hfirst hlead'

lemma cubicLead_congr {a b : Hand} {command : Command} (h : Agree a b (some command))
    {first : Option Point} {q p : Point} (hcommand : a.figure command = .cubic first q p) :
    first.getD a.cubicLead = first.getD b.cubicLead := by
  cases first with
  | some _ => rfl
  | none =>
    have hsmooth : (a.figure command).isSmoothCubic := by
      rw [hcommand]
      rfl
    have hkind := Hand.kind_of_isSmoothCubic hsmooth
    exact h.lead .smoothCubic (by simp [Command.follower?, hkind, Kind.isSmooth])

lemma Respells.congr {a b : Hand} {origin command : Command} (h : Respells a origin command)
    (hab : Agree a b (some command)) : Respells b origin command := by
  have hfigure := Hand.figure_congr hab.place
  have hpoint : a.point = b.point := congrArg Place.point hab.place
  cases h with
  | same horigin =>
    rw [hfigure, hfigure] at horigin
    exact .same horigin
  | flat horigin hcommand hseen =>
    rw [hfigure] at horigin hcommand
    exact .flat horigin hcommand (hpoint ▸ hseen)
  | curved horigin hcommand hfirst hlead =>
    rw [cubicLead_congr hab hcommand] at hlead
    rw [hfigure] at horigin hcommand
    exact .curved horigin hcommand (hpoint ▸ hfirst) (hpoint ▸ hlead)

/-- The kept spelling of a command is that of an origin. -/
structure Keeps (spaced : Bool) (hand : Hand) (command : Command) : Prop where
  openEnd : command.closesSubpath = false
  kept : ∀ text ∈ command.absoluteText, ∃ origin : Command, origin.Proper ∧ origin.Bare ∧
    text = origin.text spaced ∧ Respells hand origin command

def KeepsAll (spaced : Bool) (hand : Hand) : List Command → Prop
  | [] => True
  | command :: rest => Keeps spaced hand command ∧ KeepsAll spaced (hand.after command) rest

lemma keeps_of_bare {spaced : Bool} {hand : Hand} {command : Command} (h : command.Bare) :
    Keeps spaced hand command := by
  refine ⟨h.1, fun text htext => ?_⟩
  rw [h.2] at htext
  cases htext

lemma KeepsAll.congr {spaced : Bool} {a b : Hand} {commands : List Command}
    (h : KeepsAll spaced a commands) (hab : Agree a b commands.head?) :
    KeepsAll spaced b commands := by
  cases commands with
  | nil => trivial
  | cons command rest =>
    obtain ⟨hkeeps, hrest⟩ := h
    refine ⟨⟨hkeeps.openEnd, fun text htext => ?_⟩, hab.step.2 ▸ hrest⟩
    obtain ⟨origin, hproper, hbare, htext, hrespells⟩ := hkeeps.kept text htext
    exact ⟨origin, hproper, hbare, htext, hrespells.congr hab⟩

lemma keepsAll_append {spaced : Bool} {hand : Hand} {xs ys : List Command} :
    KeepsAll spaced hand (xs ++ ys) ↔
      KeepsAll spaced hand xs ∧ KeepsAll spaced (hand.afterAll xs) ys := by
  induction xs generalizing hand with
  | nil => simp [KeepsAll]
  | cons command rest ih =>
    rw [List.cons_append, KeepsAll, KeepsAll, ih, and_assoc, Hand.afterAll_cons]

lemma Keeps.reshape {spaced : Bool} {hand : Hand} {command : Command} {kind : Kind}
    {operands : List Binary64} (h : Keeps spaced hand command) (hsettled : Settled hand command)
    (hrespells : Respells hand command (command.reshape kind operands)) :
    Keeps spaced hand (command.reshape kind operands) := by
  refine ⟨h.openEnd, fun text htext => ?_⟩
  obtain ⟨origin, hproper, hbare, htext, horigin⟩ := h.kept text htext
  exact ⟨origin, hproper, hbare, htext, horigin.trans hsettled hrespells⟩

end Picture

end TersePath
