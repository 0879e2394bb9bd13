import TersePath.Proofs.Path.Operands
import TersePath.Path.Simplify

namespace TersePath

def Kind.isPliable : Kind → Bool
  | .line | .horizontal | .vertical | .cubic | .smoothCubic => true
  | _ => false

structure Confined (edit : Option Command → Command → Option Command → Edit) : Prop where
  changes : ∀ previous command next, edit previous command next ≠ .keep → command.kind.isPliable
  merges : ∀ before command next other, edit (some before) command next = .merge other →
    before.kind.isPliable

section Kinds

variable {previous next : Option Command} {command : Command}

lemma kind_of_isRelative {kind : Kind} (h : command.isRelative kind) : command.kind = kind :=
  congrArg Letter.kind (Command.isRelative_iff.mp h)

lemma absolute_of_isRelative {kind : Kind} (h : command.isRelative kind) : command.absolute = false :=
  congrArg Letter.absolute (Command.isRelative_iff.mp h)

lemma kind_of_isOrphanSmooth (h : command.isOrphanSmooth previous) : command.kind = .smoothCubic := by
  rw [Command.isOrphanSmooth, Bool.and_eq_true] at h
  exact kind_of_isRelative h.1

lemma kind_of_asCubic {c : Cubic} (h : command.asCubic previous = some c) : command.kind.isCubic := by
  rw [Command.asCubic] at h
  split at h
  · next hrelative =>
    rw [kind_of_isRelative hrelative]
    rfl
  · split at h
    · next horphan =>
      rw [kind_of_isOrphanSmooth horphan]
      rfl
    · cases h

lemma kind_of_isRelativeAxis (h : Edit.isRelativeAxis command) :
    command.kind = .horizontal ∨ command.kind = .vertical := by
  rw [Edit.isRelativeAxis, Bool.or_eq_true] at h
  exact h.imp kind_of_isRelative kind_of_isRelative

lemma absolute_of_isRelativeAxis (h : Edit.isRelativeAxis command) : command.absolute = false := by
  rw [Edit.isRelativeAxis, Bool.or_eq_true] at h
  exact h.elim absolute_of_isRelative absolute_of_isRelative

lemma isPliable_of_isRelativeAxis (h : Edit.isRelativeAxis command) : command.kind.isPliable := by
  rcases kind_of_isRelativeAxis h with hk | hk <;> rw [hk] <;> rfl

lemma isPliable_of_isZeroAxis (h : Edit.isZeroAxis command) : command.kind.isPliable := by
  rw [Edit.isZeroAxis, Bool.and_eq_true] at h
  exact isPliable_of_isRelativeAxis h.1

lemma isPliable_of_isCubic {kind : Kind} (h : kind.isCubic) : kind.isPliable := by
  cases kind <;> first | rfl | cases h

end Kinds

lemma mergeAxis_cases (previous : Option Command) (command : Command) (next : Option Command) :
    Edit.mergeAxis previous command next = .keep ∨
    (Edit.mergeAxis previous command next = .drop ∧ Edit.isZeroAxis command ∧
      (Command.follower? next).all (reflectsPen previous)) ∨
    ∃ before a b, previous = some before ∧ before.operands = [a] ∧ command.operands = [b] ∧
      Edit.isRelativeAxis command ∧ before.letter = command.letter ∧ sameDirection a b ∧
      Edit.mergeAxis previous command next =
        .merge { letter := command.letter, operands := [a + b] } := by
  simp only [Edit.mergeAxis]
  split
  · next hdrop =>
    rw [Bool.and_eq_true] at hdrop
    exact Or.inr (Or.inl ⟨rfl, hdrop⟩)
  · split
    · exact Or.inl rfl
    · next before _ =>
      split
      · next a b hbefore ho =>
        split
        · next hcond =>
          simp only [Bool.and_eq_true, beq_iff_eq] at hcond
          exact Or.inr (Or.inr ⟨before, a, b, rfl, hbefore, ho, hcond.1.1, hcond.1.2, hcond.2, rfl⟩)
        · exact Or.inl rfl
      · exact Or.inl rfl

lemma mergeMoves_cases (previous : Option Command) (command : Command) (next : Option Command) :
    Edit.mergeMoves previous command next = .keep ∨
    ∃ before, previous = some before ∧ command.kind = .move ∧ before.kind = .move ∧
      (command.absolute ∧ Edit.mergeMoves previous command next =
          .merge { letter := command.letter, operands := command.operands } ∨
        command.absolute = false ∧ Edit.mergeMoves previous command next = .merge {
          letter := before.letter
          operands := List.zipWith (· + ·) before.operands command.operands }) := by
  simp only [Edit.mergeMoves]
  split
  · exact Or.inl rfl
  · next before =>
    split
    · next hcond =>
      simp only [Bool.and_eq_true, beq_iff_eq] at hcond
      refine Or.inr ⟨before, rfl, hcond.1, hcond.2, ?_⟩
      split
      · next habsolute => exact Or.inl ⟨habsolute, rfl⟩
      · next habsolute => exact Or.inr ⟨Bool.eq_false_iff.mpr habsolute, rfl⟩
    · exact Or.inl rfl

namespace Confined

lemma of_asCubic {edit : Option Command → Command → Option Command → Edit}
    (hnone : ∀ previous command next, command.asCubic previous = none →
      edit previous command next = .keep)
    (hmerge : ∀ previous command next other, edit previous command next ≠ .merge other) :
    Confined edit where
  changes previous command next h := by
    cases hc : command.asCubic previous with
    | none => exact absurd (hnone previous command next hc) h
    | some c => exact isPliable_of_isCubic (kind_of_asCubic hc)
  merges before command next other h := absurd h (hmerge _ _ _ _)

lemma straightCubic : Confined Edit.straightCubic := by
  refine of_asCubic (fun previous command next h => ?_) fun previous command next other => ?_
  · simp only [Edit.straightCubic, h]
  · rw [Edit.straightCubic]
    split
    · simp
    · split
      · split
        · simp
        · split <;> simp
      · simp

lemma axisCubic : Confined Edit.axisCubic := by
  refine of_asCubic (fun previous command next h => ?_) fun previous command next other => ?_
  · simp only [Edit.axisCubic, h]
  · rw [Edit.axisCubic]
    split
    · simp
    · split
      · simp
      · dsimp only
        split
        · simp
        · split <;> simp

lemma orphanSmooth : Confined Edit.orphanSmooth where
  changes previous command next h := by
    rw [Edit.orphanSmooth] at h
    split at h
    · next horphan =>
      rw [kind_of_isOrphanSmooth horphan]
      rfl
    · exact absurd rfl h
  merges before command next other h := by
    rw [Edit.orphanSmooth] at h
    split at h <;> cases h

lemma contractSmooth : Confined Edit.contractSmooth where
  changes previous command next h := by
    rw [Edit.contractSmooth] at h
    split at h
    · split at h
      · next hcond =>
        simp only [Bool.and_eq_true] at hcond
        rw [kind_of_isRelative hcond.1.1.1]
        rfl
      · exact absurd rfl h
    · exact absurd rfl h
  merges before command next other h := by
    rw [Edit.contractSmooth] at h
    split at h
    · split at h <;> cases h
    · cases h

lemma lineToAxis : Confined Edit.lineToAxis where
  changes previous command next h := by
    rw [Edit.lineToAxis] at h
    split at h
    · split at h
      · exact absurd rfl h
      · next hrelative =>
        rw [Bool.not_eq_true', Bool.not_eq_false] at hrelative
        rw [kind_of_isRelative hrelative]
        rfl
    · exact absurd rfl h
  merges before command next other h := by
    rw [Edit.lineToAxis] at h
    split at h
    · split at h
      · cases h
      · split at h
        · cases h
        · split at h <;> cases h
    · cases h

lemma mergeAxis : Confined Edit.mergeAxis where
  changes previous command next h := by
    obtain hkeep | ⟨-, hzero, -⟩ | ⟨before, a, b, -, -, -, haxis, -⟩ :=
      mergeAxis_cases previous command next
    · exact absurd hkeep h
    · exact isPliable_of_isZeroAxis hzero
    · exact isPliable_of_isRelativeAxis haxis
  merges before command next other h := by
    obtain hkeep | ⟨hdrop, -⟩ | ⟨_, a, b, hbefore, -, -, haxis, hletter, -⟩ :=
      mergeAxis_cases (some before) command next
    · cases hkeep.symm.trans h
    · cases hdrop.symm.trans h
    · rw [Command.kind, Option.some.inj hbefore, hletter]
      exact isPliable_of_isRelativeAxis haxis

lemma zeroAxis : Confined Edit.zeroAxis where
  changes previous command next h := by
    rw [Edit.zeroAxis] at h
    split at h
    · next hdrop => exact isPliable_of_isZeroAxis (Bool.and_eq_true_iff.mp hdrop).1
    · exact absurd rfl h
  merges before command next other h := by
    rw [Edit.zeroAxis] at h
    split at h <;> cases h

end Confined

structure KeepsArcs (edit : Option Command → Command → Option Command → Edit) : Prop where
  kept : ∀ previous command next, command.kind = .arc → edit previous command next = .keep
  merged : ∀ before command next other, edit (some before) command next = .merge other →
    before.kind ≠ .arc

namespace KeepsArcs

lemma of_confined {edit : Option Command → Command → Option Command → Edit} (h : Confined edit) :
    KeepsArcs edit where
  kept previous command next hk := by
    by_contra hne
    have hpliable := h.changes previous command next hne
    rw [hk] at hpliable
    cases hpliable
  merged before command next other hmerge hk := by
    have hpliable := h.merges before command next other hmerge
    rw [hk] at hpliable
    cases hpliable

lemma closeAfterMove : KeepsArcs Edit.closeAfterMove where
  kept previous command next hk := by
    rw [Edit.closeAfterMove, hk]
    rfl
  merged before command next other hmerge := by
    rw [Edit.closeAfterMove] at hmerge
    split at hmerge <;> cases hmerge

lemma mergeMoves : KeepsArcs Edit.mergeMoves where
  kept previous command next hk := by
    obtain hkeep | ⟨before, -, hmove, -⟩ := mergeMoves_cases previous command next
    · exact hkeep
    · cases hk.symm.trans hmove
  merged before command next other hmerge hk := by
    obtain hkeep | ⟨_, hbefore, -, hmove, -⟩ := mergeMoves_cases (some before) command next
    · cases hkeep.symm.trans hmerge
    · rw [← Option.some.inj hbefore, hk] at hmove
      cases hmove

end KeepsArcs

lemma mem_sweep_of_arc {edit : Option Command → Command → Option Command → Edit} (h : KeepsArcs edit)
    {previous : Option Command} {commands : List Command} {arc : Command} (harc : arc.kind = .arc)
    (hmem : arc ∈ previous.toList ++ commands) : arc ∈ sweep edit previous commands := by
  induction commands generalizing previous with
  | nil => simpa [sweep] using hmem
  | cons command rest ih =>
    rw [List.mem_append, List.mem_cons, Option.mem_toList] at hmem
    rw [sweep]
    split
    · rcases hmem with hmem | rfl | hmem
      · exact List.mem_append_left _ (Option.mem_toList.mpr hmem)
      · exact List.mem_append_right _ (ih (List.mem_append_left _ (by simp)))
      · exact List.mem_append_right _ (ih (List.mem_append_right _ hmem))
    · next hreplace =>
      rcases hmem with hmem | rfl | hmem
      · exact List.mem_append_left _ (Option.mem_toList.mpr hmem)
      · rw [h.kept _ _ _ harc] at hreplace
        cases hreplace
      · exact List.mem_append_right _ (ih (List.mem_append_right _ hmem))
    · next hdrop =>
      rcases hmem with hmem | rfl | hmem
      · exact ih (List.mem_append_left _ (Option.mem_toList.mpr hmem))
      · rw [h.kept _ _ _ harc] at hdrop
        cases hdrop
      · exact ih (List.mem_append_right _ hmem)
    · next hmerge =>
      rcases hmem with hmem | rfl | hmem
      · obtain rfl := Option.mem_def.mp hmem
        exact absurd harc (h.merged _ _ _ _ hmerge)
      · rw [h.kept _ _ _ harc] at hmerge
        cases hmerge
      · exact ih (List.mem_append_right _ hmem)

lemma trimMoves_cons (command : Command) (rest : List Command) : trimMoves (command :: rest) =
    if command.kind == .move && (trimMoves rest).isEmpty then [] else command :: trimMoves rest := rfl

lemma mem_trimMoves_of_arc {commands : List Command} {arc : Command} (harc : arc.kind = .arc)
    (hmem : arc ∈ commands) : arc ∈ trimMoves commands := by
  induction commands with
  | nil => exact hmem
  | cons command rest ih =>
    rw [trimMoves_cons]
    rcases List.mem_cons.mp hmem with rfl | hmem
    · rw [harc]
      exact List.mem_cons_self
    · split
      · next hcond =>
        rw [Bool.and_eq_true, List.isEmpty_iff] at hcond
        have hrest := ih hmem
        rw [hcond.2] at hrest
        cases hrest
      · exact List.mem_cons_of_mem _ (ih hmem)

lemma Rule.mem_apply_of_arc (rule : Rule) {commands : List Command} {arc : Command}
    (harc : arc.kind = .arc) (hmem : arc ∈ commands) : arc ∈ rule.apply commands := by
  have hsweep : ∀ {edit commands}, KeepsArcs edit → arc ∈ commands → arc ∈ sweep edit none commands :=
    fun hedit hmem => mem_sweep_of_arc hedit harc hmem
  cases rule with
  | straightCubics => exact hsweep (.of_confined .straightCubic) hmem
  | axisCubics => exact hsweep (.of_confined .axisCubic) hmem
  | orphanSmooth => exact hsweep (.of_confined .orphanSmooth) hmem
  | contractSmooth => exact hsweep (.of_confined .contractSmooth) hmem
  | linesToAxis => exact hsweep (.of_confined .lineToAxis) hmem
  | mergeAxisRuns => exact hsweep (.of_confined .mergeAxis) hmem
  | dropZeroAxis => exact hsweep (.of_confined .zeroAxis) hmem
  | cleanMoves =>
    exact hsweep .mergeMoves (mem_trimMoves_of_arc harc (hsweep .closeAfterMove hmem))

theorem mem_simplify_of_arc {commands : List Command} {arc : Command} (harc : arc.kind = .arc)
    (hmem : arc ∈ commands) : arc ∈ simplify commands := by
  rw [simplify]
  generalize Rule.all = rules
  induction rules generalizing commands with
  | nil => exact hmem
  | cons rule rest ih => exact ih (rule.mem_apply_of_arc harc hmem)

end TersePath
