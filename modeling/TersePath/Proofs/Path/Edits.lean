import TersePath.Proofs.Path.Fixed

namespace TersePath

section Cases

variable {previous next : Option Command} {command : Command}

lemma asCubic_cases {c : Cubic} (h : command.asCubic previous = some c) :
    (command.isRelative .cubic = true ∧ command.operands = c.operands) ∨
    (command.isOrphanSmooth previous = true ∧ command.operands = [c.x2, c.y2, c.x, c.y] ∧
      c.x1 = .zero ∧ c.y1 = .zero) := by
  rw [Command.asCubic] at h
  split at h
  · next hcubic =>
    split at h
    · next ho =>
      obtain rfl := Option.some.inj h
      exact Or.inl ⟨hcubic, ho⟩
    · cases h
  · split at h
    · next horphan =>
      split at h
      · next ho =>
        obtain rfl := Option.some.inj h
        exact Or.inr ⟨horphan, ho, rfl, rfl⟩
      · cases h
    · cases h

lemma straightCubic_cases (previous : Option Command) (command : Command) (next : Option Command) :
    Edit.straightCubic previous command next = .keep ∨
    ∃ c, command.asCubic previous = some c ∧ c.x1.isZero = true ∧ c.y1.isZero = true ∧
      (Edit.straightCubic previous command next = .replace (command.reshape .line [c.x, c.y]) ∨
        Edit.straightCubic previous command next = .drop) := by
  simp only [Edit.straightCubic]
  split
  · exact Or.inl rfl
  · next c hc =>
    split
    · next hzero =>
      obtain ⟨hx, hy⟩ := Bool.and_eq_true_iff.mp hzero
      split
      · exact Or.inr ⟨c, hc, hx, hy, Or.inl rfl⟩
      · split
        · exact Or.inr ⟨c, hc, hx, hy, Or.inr rfl⟩
        · exact Or.inl rfl
    · exact Or.inl rfl

lemma axisCubic_cases (previous : Option Command) (command : Command) (next : Option Command) :
    Edit.axisCubic previous command next = .keep ∨
    ∃ c, command.asCubic previous = some c ∧
      ((c.x1.isZero = true ∧ c.x2.isZero = true ∧ c.x.isZero = true ∧
          Edit.axisCubic previous command next = .replace (command.reshape .vertical [c.y])) ∨
        (c.y1.isZero = true ∧ c.y2.isZero = true ∧ c.y.isZero = true ∧
          Edit.axisCubic previous command next = .replace (command.reshape .horizontal [c.x]))) := by
  simp only [Edit.axisCubic]
  split
  · exact Or.inl rfl
  · next c hc =>
    split
    · exact Or.inl rfl
    · split
      · next hxs =>
        simp only [List.all_cons, Bool.and_eq_true] at hxs
        exact Or.inr ⟨c, hc, Or.inl ⟨hxs.1.2.1, hxs.1.2.2.1, hxs.1.2.2.2.1, rfl⟩⟩
      · split
        · next hys =>
          simp only [List.all_cons, Bool.and_eq_true] at hys
          exact Or.inr ⟨c, hc, Or.inr ⟨hys.1.2.1, hys.1.2.2.1, hys.1.2.2.2.1, rfl⟩⟩
        · exact Or.inl rfl

lemma orphanSmooth_cases (previous : Option Command) (command : Command) (next : Option Command) :
    Edit.orphanSmooth previous command next = .keep ∨
    (command.isOrphanSmooth previous = true ∧ Edit.orphanSmooth previous command next =
      .replace (command.reshape .cubic (.zero :: .zero :: command.operands))) := by
  rw [Edit.orphanSmooth]
  split
  · next horphan => exact Or.inr ⟨horphan, rfl⟩
  · exact Or.inl rfl

lemma contractSmooth_cases (previous : Option Command) (command : Command) (next : Option Command) :
    Edit.contractSmooth previous command next = .keep ∨
    ∃ x1 y1 rest, command.operands = x1 :: y1 :: rest ∧ command.isRelative .cubic = true ∧
      x1.isZero = true ∧ y1.isZero = true ∧ previous.any Edit.isRelativeLine = true ∧
      Edit.contractSmooth previous command next = .replace (command.reshape .smoothCubic rest) := by
  rw [Edit.contractSmooth]
  split
  · next x1 y1 rest ho =>
    split
    · next hcond =>
      simp only [Bool.and_eq_true] at hcond
      exact Or.inr ⟨x1, y1, rest, ho, hcond.1.1.1, hcond.1.1.2, hcond.1.2, hcond.2, rfl⟩
    · exact Or.inl rfl
  · exact Or.inl rfl

lemma zeroAxis_cases (previous : Option Command) (command : Command) (next : Option Command) :
    Edit.zeroAxis previous command next = .keep ∨
    (Edit.isZeroAxis command = true ∧ Edit.zeroAxis previous command next = .drop) := by
  rw [Edit.zeroAxis]
  split
  · next hdrop => exact Or.inr ⟨(Bool.and_eq_true_iff.mp hdrop).1, rfl⟩
  · exact Or.inl rfl

end Cases

section Kinds

variable {previous next : Option Command} {command other : Command}

lemma kind_of_straightCubic (h : Edit.straightCubic previous command next = .replace other) :
    command.kind.isCubic ∧ other.kind = .line := by
  obtain hcase | ⟨c, hc, -, -, hcase | hcase⟩ := straightCubic_cases previous command next
  · cases hcase.symm.trans h
  · obtain rfl := Edit.replace.inj (hcase.symm.trans h)
    exact ⟨kind_of_asCubic hc, rfl⟩
  · cases hcase.symm.trans h

lemma kind_of_axisCubic (h : Edit.axisCubic previous command next = .replace other) :
    command.kind.isCubic ∧ (other.kind = .vertical ∨ other.kind = .horizontal) := by
  obtain hcase | ⟨c, hc, ⟨-, -, -, hcase⟩ | ⟨-, -, -, hcase⟩⟩ := axisCubic_cases previous command next
  · cases hcase.symm.trans h
  · obtain rfl := Edit.replace.inj (hcase.symm.trans h)
    exact ⟨kind_of_asCubic hc, Or.inl rfl⟩
  · obtain rfl := Edit.replace.inj (hcase.symm.trans h)
    exact ⟨kind_of_asCubic hc, Or.inr rfl⟩

lemma kind_of_orphanSmooth (h : Edit.orphanSmooth previous command next = .replace other) :
    other.kind = .cubic := by
  obtain hcase | ⟨-, hcase⟩ := orphanSmooth_cases previous command next
  · cases hcase.symm.trans h
  · obtain rfl := Edit.replace.inj (hcase.symm.trans h)
    rfl

lemma kind_of_contractSmooth (h : Edit.contractSmooth previous command next = .replace other) :
    command.kind = .cubic ∧ other.kind = .smoothCubic := by
  obtain hcase | ⟨x1, y1, rest, -, hcubic, -, -, -, hcase⟩ := contractSmooth_cases previous command next
  · cases hcase.symm.trans h
  · obtain rfl := Edit.replace.inj (hcase.symm.trans h)
    exact ⟨kind_of_isRelative hcubic, rfl⟩

lemma eq_flat_of_lineToAxis (h : Edit.lineToAxis previous command next = .replace other) :
    other = command.flat := by
  obtain ⟨hcase, -⟩ | hcase := lineToAxis_cases previous command next
  · cases hcase.symm.trans h
  · exact (Edit.replace.inj (hcase.symm.trans h)).symm

lemma kind_flat (command : Command) : command.flat = command ∨
    command.kind = .line ∧ (command.flat.kind = .horizontal ∨ command.flat.kind = .vertical) := by
  obtain hflat | ⟨x, y, -, hline, ⟨-, hflat⟩ | ⟨-, -, hflat⟩⟩ := flat_cases command
  · exact Or.inl hflat
  · rw [hflat]
    exact Or.inr ⟨kind_of_isRelative hline, Or.inl rfl⟩
  · rw [hflat]
    exact Or.inr ⟨kind_of_isRelative hline, Or.inr rfl⟩

end Kinds

/-- All the ways in which the rules put another command in the place of one. -/
inductive Replaces (previous : Option Command) (command : Command) : Command → Prop
  | straight (c : Cubic) (h : command.asCubic previous = some c) (hx : c.x1.isZero = true)
      (hy : c.y1.isZero = true) : Replaces previous command (command.reshape .line [c.x, c.y])
  | vertical (c : Cubic) (h : command.asCubic previous = some c) (hx1 : c.x1.isZero = true)
      (hx2 : c.x2.isZero = true) (hx : c.x.isZero = true) :
      Replaces previous command (command.reshape .vertical [c.y])
  | horizontal (c : Cubic) (h : command.asCubic previous = some c) (hy1 : c.y1.isZero = true)
      (hy2 : c.y2.isZero = true) (hy : c.y.isZero = true) :
      Replaces previous command (command.reshape .horizontal [c.x])
  | spelledOut (h : command.isOrphanSmooth previous = true) :
      Replaces previous command (command.reshape .cubic (.zero :: .zero :: command.operands))
  | smooth (x1 y1 : Binary64) (rest : List Binary64) (ho : command.operands = x1 :: y1 :: rest)
      (h : command.isRelative .cubic = true) (hx : x1.isZero = true) (hy : y1.isZero = true) :
      Replaces previous command (command.reshape .smoothCubic rest)
  | flat : Replaces previous command command.flat

/-- All the ways in which the rules make one command of two. -/
inductive Joins (before command : Command) : Command → Prop
  | axis (a b : Binary64) (hbefore : before.operands = [a]) (hcommand : command.operands = [b])
      (haxis : Edit.isRelativeAxis command = true) (hletter : before.letter = command.letter) :
      Joins before command { letter := command.letter, operands := [a + b] }
  | moveTo (hbefore : before.kind = .move) (hcommand : command.kind = .move)
      (habsolute : command.absolute = true) :
      Joins before command { letter := command.letter, operands := command.operands }
  | moveBy (hbefore : before.kind = .move) (hcommand : command.kind = .move)
      (hrelative : command.absolute = false) :
      Joins before command {
        letter := before.letter
        operands := List.zipWith (· + ·) before.operands command.operands }

lemma absoluteText_flat (command : Command) : command.flat.absoluteText = command.absoluteText := by
  obtain h | ⟨x, y, -, -, ⟨-, h⟩ | ⟨-, -, h⟩⟩ := flat_cases command
  · rw [h]
  · rw [h]
    rfl
  · rw [h]
    rfl

lemma Replaces.absoluteText {previous : Option Command} {command other : Command}
    (h : Replaces previous command other) : other.absoluteText = command.absoluteText := by
  cases h with
  | flat => exact absoluteText_flat command
  | _ => rfl

lemma Joins.bare {before command other : Command} (h : Joins before command other) : other.Bare := by
  cases h <;> exact ⟨rfl, rfl⟩

structure Lawful (edit : Option Command → Command → Option Command → Edit) : Prop where
  replaces : ∀ previous command next other, edit previous command next = .replace other →
    Replaces previous command other
  joins : ∀ previous command next other, edit previous command next = .merge other →
    ∃ before, previous = some before ∧ Joins before command other

section Apart

variable (previous : Option Command) (command : Command) (next : Option Command) (other : Command)

lemma not_merge_straightCubic : Edit.straightCubic previous command next ≠ .merge other := by
  intro h
  obtain hcase | ⟨c, -, -, -, hcase | hcase⟩ := straightCubic_cases previous command next
  all_goals cases hcase.symm.trans h

lemma not_merge_axisCubic : Edit.axisCubic previous command next ≠ .merge other := by
  intro h
  obtain hcase | ⟨c, -, ⟨-, -, -, hcase⟩ | ⟨-, -, -, hcase⟩⟩ := axisCubic_cases previous command next
  all_goals cases hcase.symm.trans h

lemma not_merge_orphanSmooth : Edit.orphanSmooth previous command next ≠ .merge other := by
  intro h
  obtain hcase | ⟨-, hcase⟩ := orphanSmooth_cases previous command next
  all_goals cases hcase.symm.trans h

lemma not_merge_contractSmooth : Edit.contractSmooth previous command next ≠ .merge other := by
  intro h
  obtain hcase | ⟨x1, y1, rest, -, -, -, -, -, hcase⟩ := contractSmooth_cases previous command next
  all_goals cases hcase.symm.trans h

lemma not_merge_lineToAxis : Edit.lineToAxis previous command next ≠ .merge other := by
  intro h
  obtain ⟨hcase, -⟩ | hcase := lineToAxis_cases previous command next
  all_goals cases hcase.symm.trans h

lemma not_merge_zeroAxis : Edit.zeroAxis previous command next ≠ .merge other := by
  intro h
  obtain hcase | ⟨-, hcase⟩ := zeroAxis_cases previous command next
  all_goals cases hcase.symm.trans h

lemma not_replace_zeroAxis : Edit.zeroAxis previous command next ≠ .replace other := by
  intro h
  obtain hcase | ⟨-, hcase⟩ := zeroAxis_cases previous command next
  all_goals cases hcase.symm.trans h

lemma not_merge_closeAfterMove : Edit.closeAfterMove previous command next ≠ .merge other := by
  intro h
  rcases closeAfterMove_cases previous command next with ⟨hcase, -⟩ | ⟨hcase, -⟩
  all_goals cases hcase.symm.trans h

end Apart

namespace Lawful

lemma straightCubic : Lawful Edit.straightCubic where
  replaces previous command next other h := by
    obtain hcase | ⟨c, hc, hx, hy, hcase | hcase⟩ := straightCubic_cases previous command next
    · cases hcase.symm.trans h
    · obtain rfl := Edit.replace.inj (hcase.symm.trans h)
      exact .straight c hc hx hy
    · cases hcase.symm.trans h
  joins _ _ _ _ h := absurd h (not_merge_straightCubic _ _ _ _)

lemma axisCubic : Lawful Edit.axisCubic where
  replaces previous command next other h := by
    obtain hcase | ⟨c, hc, ⟨h1, h2, h3, hcase⟩ | ⟨h1, h2, h3, hcase⟩⟩ :=
      axisCubic_cases previous command next
    · cases hcase.symm.trans h
    · obtain rfl := Edit.replace.inj (hcase.symm.trans h)
      exact .vertical c hc h1 h2 h3
    · obtain rfl := Edit.replace.inj (hcase.symm.trans h)
      exact .horizontal c hc h1 h2 h3
  joins _ _ _ _ h := absurd h (not_merge_axisCubic _ _ _ _)

lemma orphanSmooth : Lawful Edit.orphanSmooth where
  replaces previous command next other h := by
    obtain hcase | ⟨horphan, hcase⟩ := orphanSmooth_cases previous command next
    · cases hcase.symm.trans h
    · obtain rfl := Edit.replace.inj (hcase.symm.trans h)
      exact .spelledOut horphan
  joins _ _ _ _ h := absurd h (not_merge_orphanSmooth _ _ _ _)

lemma contractSmooth : Lawful Edit.contractSmooth where
  replaces previous command next other h := by
    obtain hcase | ⟨x1, y1, rest, ho, hcubic, hx, hy, -, hcase⟩ :=
      contractSmooth_cases previous command next
    · cases hcase.symm.trans h
    · obtain rfl := Edit.replace.inj (hcase.symm.trans h)
      exact .smooth x1 y1 rest ho hcubic hx hy
  joins _ _ _ _ h := absurd h (not_merge_contractSmooth _ _ _ _)

lemma lineToAxis : Lawful Edit.lineToAxis where
  replaces previous command next other h := by
    obtain ⟨hcase, -⟩ | hcase := lineToAxis_cases previous command next
    · cases hcase.symm.trans h
    · obtain rfl := Edit.replace.inj (hcase.symm.trans h)
      exact .flat
  joins _ _ _ _ h := absurd h (not_merge_lineToAxis _ _ _ _)

lemma mergeAxis : Lawful Edit.mergeAxis where
  replaces _ _ _ _ h := absurd h (shortens_mergeAxis.present _ _ _ _)
  joins previous command next other h := by
    obtain hcase | ⟨hcase, -⟩ | ⟨before, a, b, hbefore, ha, hb, haxis, hletter, -, hcase⟩ :=
      mergeAxis_cases previous command next
    · cases hcase.symm.trans h
    · cases hcase.symm.trans h
    · obtain rfl := Edit.merge.inj (hcase.symm.trans h)
      exact ⟨before, hbefore, .axis a b ha hb haxis hletter⟩

lemma zeroAxis : Lawful Edit.zeroAxis where
  replaces _ _ _ _ h := absurd h (not_replace_zeroAxis _ _ _ _)
  joins _ _ _ _ h := absurd h (not_merge_zeroAxis _ _ _ _)

lemma closeAfterMove : Lawful Edit.closeAfterMove where
  replaces _ _ _ _ h := absurd h (shortens_closeAfterMove.present _ _ _ _)
  joins _ _ _ _ h := absurd h (not_merge_closeAfterMove _ _ _ _)

lemma mergeMoves : Lawful Edit.mergeMoves where
  replaces _ _ _ _ h := absurd h (shortens_mergeMoves.present _ _ _ _)
  joins previous command next other h := by
    obtain hcase | ⟨before, hbefore, hk, hfirst, ⟨habsolute, hcase⟩ | ⟨hrelative, hcase⟩⟩ :=
      mergeMoves_cases previous command next
    · cases hcase.symm.trans h
    · obtain rfl := Edit.merge.inj (hcase.symm.trans h)
      exact ⟨before, hbefore, .moveTo hfirst hk habsolute⟩
    · obtain rfl := Edit.merge.inj (hcase.symm.trans h)
      exact ⟨before, hbefore, .moveBy hfirst hk hrelative⟩

end Lawful

structure Maintained (good : Command → Prop) : Prop where
  replaces : ∀ previous command other, Replaces previous command other → good command → good other
  joins : ∀ before command other, Joins before command other → good before → good command → good other

section Sweeps

variable {good : Command → Prop} {edit : Option Command → Command → Option Command → Edit}

lemma forall_sweep (hreplace : ∀ previous command next other,
      edit previous command next = .replace other → good command → good other)
    (hmerge : ∀ previous command next other, edit previous command next = .merge other →
      (∀ p ∈ previous, good p) → good command → good other)
    {previous : Option Command} {commands : List Command} (hprevious : ∀ p ∈ previous, good p)
    (hall : ∀ c ∈ commands, good c) : ∀ c ∈ sweep edit previous commands, good c := by
  induction commands generalizing previous with
  | nil => simpa [sweep] using hprevious
  | cons command rest ih =>
    obtain ⟨hcommand, hrest⟩ := List.forall_mem_cons.mp hall
    have hafter : ∀ other, good other →
        ∀ c ∈ previous.toList ++ sweep edit (some other) rest, good c := by
      intro other hother c hc
      rcases List.mem_append.mp hc with hc | hc
      · exact hprevious c (Option.mem_toList.mp hc)
      · exact ih (by simpa using hother) hrest c hc
    rw [sweep]
    split
    · exact hafter command hcommand
    · next other hcase => exact hafter other (hreplace _ _ _ _ hcase hcommand)
    · exact ih hprevious hrest
    · next other hcase =>
      exact ih (by simpa using hmerge _ _ _ _ hcase hprevious hcommand) hrest

lemma Maintained.forall_sweep (h : Maintained good) (hedit : Lawful edit) {previous : Option Command}
    {commands : List Command} (hprevious : ∀ p ∈ previous, good p) (hall : ∀ c ∈ commands, good c) :
    ∀ c ∈ sweep edit previous commands, good c := by
  refine TersePath.forall_sweep (fun _ _ _ _ hcase => h.replaces _ _ _ (hedit.replaces _ _ _ _ hcase))
    (fun _ _ _ other hcase hgood hcommand => ?_) hprevious hall
  obtain ⟨before, rfl, hjoins⟩ := hedit.joins _ _ _ _ hcase
  exact h.joins _ _ _ hjoins (hgood before rfl) hcommand

lemma mem_of_mem_trimMoves {command : Command} {commands : List Command}
    (h : command ∈ trimMoves commands) : command ∈ commands := by
  induction commands with
  | nil => exact h
  | cons first rest ih =>
    rw [trimMoves_cons] at h
    split at h
    · cases h
    · exact List.mem_cons.mpr ((List.mem_cons.mp h).imp id ih)

lemma Maintained.forall_apply (h : Maintained good) (rule : Rule) {commands : List Command}
    (hall : ∀ c ∈ commands, good c) : ∀ c ∈ rule.apply commands, good c := by
  have hsweep : ∀ {edit commands}, Lawful edit → (∀ c ∈ commands, good c) →
      ∀ c ∈ sweep edit none commands, good c := fun hedit hcommands =>
    h.forall_sweep hedit (by simp) hcommands
  cases rule with
  | straightCubics => exact hsweep .straightCubic hall
  | axisCubics => exact hsweep .axisCubic hall
  | orphanSmooth => exact hsweep .orphanSmooth hall
  | contractSmooth => exact hsweep .contractSmooth hall
  | linesToAxis => exact hsweep .lineToAxis hall
  | mergeAxisRuns => exact hsweep .mergeAxis hall
  | dropZeroAxis => exact hsweep .zeroAxis hall
  | cleanMoves =>
    exact hsweep .mergeMoves fun c hc => hsweep .closeAfterMove hall c (mem_of_mem_trimMoves hc)

theorem Maintained.forall_simplify (h : Maintained good) {commands : List Command}
    (hall : ∀ c ∈ commands, good c) : ∀ c ∈ simplify commands, good c := by
  rw [simplify]
  generalize Rule.all = rules
  induction rules generalizing commands with
  | nil => exact hall
  | cons rule rest ih => exact ih (h.forall_apply rule hall)

end Sweeps

end TersePath
