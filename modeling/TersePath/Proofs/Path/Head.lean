import TersePath.Proofs.Path.Confined
import TersePath.Path.Cursor
import TersePath.Path.Simplify

namespace TersePath

def BeginsWithMove (commands : List Command) : Prop := ∀ c ∈ commands.head?, c.kind = .move

/-- An edit keeps a move at the head, and makes a move of what it merges with one. -/
structure KeepsHead (edit : Option Command → Command → Option Command → Edit) : Prop where
  first : ∀ command next, command.kind = .move → edit none command next = .keep
  merged : ∀ before command next other, before.kind = .move →
    edit (some before) command next = .merge other → other.kind = .move

lemma beginsWithMove_cons {command : Command} (h : command.kind = .move) (rest : List Command) :
    BeginsWithMove (command :: rest) := by
  intro c hc
  obtain rfl : command = c := Option.some.inj hc
  exact h

lemma head_sweep {edit : Option Command → Command → Option Command → Edit} (h : KeepsHead edit)
    {before : Command} (hbefore : before.kind = .move) (commands : List Command) :
    BeginsWithMove (sweep edit (some before) commands) := by
  induction commands generalizing before with
  | nil => exact beginsWithMove_cons hbefore _
  | cons command rest ih =>
    rw [sweep]
    split
    · exact beginsWithMove_cons hbefore _
    · exact beginsWithMove_cons hbefore _
    · exact ih hbefore
    · next hmerge => exact ih (h.merged _ _ _ _ hbefore hmerge)

lemma beginsWithMove_sweep {edit : Option Command → Command → Option Command → Edit}
    (h : KeepsHead edit) {commands : List Command} (hhead : BeginsWithMove commands) :
    BeginsWithMove (sweep edit none commands) := by
  cases commands with
  | nil => simp [BeginsWithMove, sweep]
  | cons command rest =>
    have hkind : command.kind = .move := hhead command rfl
    rw [sweep, h.first command rest.head? hkind]
    exact head_sweep h hkind rest

namespace KeepsHead

lemma of_confined {edit : Option Command → Command → Option Command → Edit} (h : Confined edit) :
    KeepsHead edit where
  first command next hk := by
    by_contra hne
    have hpliable := h.changes none command next hne
    rw [hk] at hpliable
    cases hpliable
  merged before command next other hk hmerge := by
    have hpliable := h.merges before command next other hmerge
    rw [hk] at hpliable
    cases hpliable

lemma closeAfterMove : KeepsHead Edit.closeAfterMove where
  first command next h := by simp [Edit.closeAfterMove]
  merged before command next other _ hmerge := by
    rw [Edit.closeAfterMove] at hmerge
    split at hmerge <;> cases hmerge

lemma mergeMoves : KeepsHead Edit.mergeMoves where
  first command next h := rfl
  merged before command next other hbefore hmerge := by
    obtain hkeep | ⟨_, -, hkind, hfirst, ⟨-, hother⟩ | ⟨-, hother⟩⟩ :=
      mergeMoves_cases (some before) command next
    · cases hkeep.symm.trans hmerge
    · obtain rfl := Edit.merge.inj (hother.symm.trans hmerge)
      exact hkind
    · obtain rfl := Edit.merge.inj (hother.symm.trans hmerge)
      exact hfirst

end KeepsHead

lemma beginsWithMove_trimMoves {commands : List Command} (h : BeginsWithMove commands) :
    BeginsWithMove (trimMoves commands) := by
  cases commands with
  | nil => exact h
  | cons command rest =>
    simp only [trimMoves, List.foldr_cons]
    split
    · simp [BeginsWithMove]
    · exact beginsWithMove_cons (h command rfl) _

lemma Rule.beginsWithMove_apply (rule : Rule) {commands : List Command}
    (h : BeginsWithMove commands) : BeginsWithMove (rule.apply commands) := by
  cases rule with
  | straightCubics => exact beginsWithMove_sweep (.of_confined .straightCubic) h
  | axisCubics => exact beginsWithMove_sweep (.of_confined .axisCubic) h
  | orphanSmooth => exact beginsWithMove_sweep (.of_confined .orphanSmooth) h
  | contractSmooth => exact beginsWithMove_sweep (.of_confined .contractSmooth) h
  | linesToAxis => exact beginsWithMove_sweep (.of_confined .lineToAxis) h
  | mergeAxisRuns => exact beginsWithMove_sweep (.of_confined .mergeAxis) h
  | dropZeroAxis => exact beginsWithMove_sweep (.of_confined .zeroAxis) h
  | cleanMoves =>
    have hclose := beginsWithMove_sweep .closeAfterMove h
    exact beginsWithMove_sweep .mergeMoves (beginsWithMove_trimMoves hclose)

lemma beginsWithMove_toRelative {spaced : Bool} {commands : List Command} (h : BeginsWithMove commands) :
    BeginsWithMove (toRelative spaced commands) := by
  cases commands with
  | nil => exact h
  | cons command rest =>
    have hmove : command.kind = .move := h command rfl
    rw [toRelative]
    refine beginsWithMove_cons ?_ _
    split
    · exact hmove
    · exact hmove

theorem beginsWithMove_simplify {commands : List Command} (h : BeginsWithMove commands) :
    BeginsWithMove (simplify commands) := by
  rw [simplify]
  generalize Rule.all = rules
  induction rules generalizing commands with
  | nil => exact h
  | cons rule rest ih => exact ih (rule.beginsWithMove_apply h)

end TersePath
