import TersePath.Proofs.Path.Operands
import TersePath.Path.Simplify

/-! Rules whose arithmetic is exact. Only three rules compute: one compares products to see whether a
control point lies on a chord, two add the operands of the commands that they merge. -/

namespace TersePath

def Edit.last (previous : Option Command) (command : Command) : Edit → Option Command
  | keep => some command
  | replace other => some other
  | drop => previous
  | merge other => some other

def SweepAll (holds : Option Command → Command → Option Command → Prop)
    (edit : Option Command → Command → Option Command → Edit) :
    Option Command → List Command → Prop
  | _, [] => True
  | previous, command :: rest =>
    holds previous command rest.head? ∧
      SweepAll holds edit ((edit previous command rest.head?).last previous command) rest

def ExactChord (x1 y1 x2 y2 : Binary64) : Prop :=
  (x1 * y2 - y1 * x2).Is (x1.value * y2.value - y1.value * x2.value) ∧
    (x1 * x2 + y1 * y2).Is (x1.value * x2.value + y1.value * y2.value) ∧
    (x2 * x2 + y2 * y2).Is (x2.value * x2.value + y2.value * y2.value)

def ExactChordAt (previous : Option Command) (command : Command) (_ : Option Command) : Prop :=
  ∀ c ∈ command.asCubic previous, c.x1.isZero && c.y1.isZero → ExactChord c.x2 c.y2 c.x c.y

def ExactSums (before command : Command) : Prop :=
  ∀ p ∈ before.operands.zip command.operands, (p.1 + p.2).Is (p.1.value + p.2.value)

/-- An absolute command that is merged takes no sums. -/
def ExactMergeAt (edit : Option Command → Command → Option Command → Edit)
    (previous : Option Command) (command : Command) (next : Option Command) : Prop :=
  match previous, edit previous command next with
  | some before, .merge _ => command.absolute = false → ExactSums before command
  | _, _ => True

namespace Rule

def Exact : Rule → List Command → Prop
  | straightCubics, commands => SweepAll ExactChordAt Edit.straightCubic none commands
  | mergeAxisRuns, commands =>
    SweepAll (ExactMergeAt Edit.mergeAxis) Edit.mergeAxis none commands
  | cleanMoves, commands =>
    SweepAll (ExactMergeAt Edit.mergeMoves) Edit.mergeMoves none
      (trimMoves (sweep Edit.closeAfterMove none commands))
  | _, _ => True

/-- Every sum and every product that the rules take one after another is exact. -/
def AllExact : List Rule → List Command → Prop
  | [], _ => True
  | rule :: rest, commands => rule.Exact commands ∧ AllExact rest (rule.apply commands)

end Rule

section Decidability

instance (x1 y1 x2 y2 : Binary64) : Decidable (ExactChord x1 y1 x2 y2) :=
  inferInstanceAs (Decidable (_ ∧ _))

instance (previous : Option Command) (command : Command) (next : Option Command) :
    Decidable (ExactChordAt previous command next) :=
  inferInstanceAs (Decidable (∀ c ∈ command.asCubic previous, _ → _))

instance (before command : Command) : Decidable (ExactSums before command) :=
  inferInstanceAs (Decidable (∀ p ∈ before.operands.zip command.operands, _))

instance (edit : Option Command → Command → Option Command → Edit)
    (previous : Option Command) (command : Command) (next : Option Command) :
    Decidable (ExactMergeAt edit previous command next) := by
  unfold ExactMergeAt
  split <;> infer_instance

instance SweepAll.decidable {holds : Option Command → Command → Option Command → Prop}
    {edit : Option Command → Command → Option Command → Edit}
    [∀ previous command next, Decidable (holds previous command next)] :
    (previous : Option Command) → (commands : List Command) →
      Decidable (SweepAll holds edit previous commands)
  | _, [] => isTrue trivial
  | _, _ :: rest => @instDecidableAnd _ _ _ (SweepAll.decidable _ rest)

instance (rule : Rule) (commands : List Command) : Decidable (rule.Exact commands) := by
  cases rule <;> unfold Rule.Exact <;> infer_instance

instance Rule.AllExact.decidable :
    (rules : List Rule) → (commands : List Command) → Decidable (Rule.AllExact rules commands)
  | [], _ => isTrue trivial
  | rule :: rest, commands =>
    @instDecidableAnd _ _ _ (Rule.AllExact.decidable rest (rule.apply commands))

end Decidability

end TersePath
