import TersePath.Proofs.Path.Still

namespace TersePath

open Edit

/-- A cubic that neither starts towards its own start nor keeps to one axis. -/
def Cubic.bends (c : Cubic) : Bool :=
  !(c.x1.isZero && c.y1.isZero) && !(c.x1.isZero && c.x2.isZero && c.x.isZero) &&
    !(c.y1.isZero && c.y2.isZero && c.y.isZero)

/-- A relative cubic bends; a smooth one is no such cubic as long as there is a cubic before it. -/
def Bends (previous : Option Command) (command : Command) (_ : Option Command) : Prop :=
  (command.asCubic previous).all Cubic.bends = true

section Bends

variable {previous next : Option Command} {command : Command} {commands : List Command}

lemma bends_of_asCubic (h : Bends previous command next) {c : Cubic}
    (hc : command.asCubic previous = some c) : c.bends = true := by
  rwa [Bends, hc] at h

lemma not_isOrphanSmooth (h : Bends previous command next) (hwell : command.WellFormed) :
    command.isOrphanSmooth previous = false := by
  rw [Bool.eq_false_iff]
  intro horphan
  have hk := kind_of_isOrphanSmooth horphan
  rw [Command.WellFormed, hk] at hwell
  obtain ⟨x2, y2, x, y, ho⟩ := exists_of_length_four hwell
  have hrelative : command.isRelative .cubic = false := by
    rw [Bool.eq_false_iff]
    intro hrelative
    cases hk.symm.trans (kind_of_isRelative hrelative)
  have hc : command.asCubic previous = some ⟨.zero, .zero, x2, y2, x, y⟩ := by
    rw [Command.asCubic, hrelative, horphan, ho]
    rfl
  cases bends_of_asCubic h hc

lemma still_straightCubic (h : Bends previous command next) : Still straightCubic previous command next := by
  rw [Still, straightCubic]
  split
  · rfl
  · next c hc =>
    have hbends := bends_of_asCubic h hc
    simp only [Cubic.bends, Bool.and_eq_true, Bool.not_eq_true'] at hbends
    rw [hbends.1.1]
    rfl

lemma still_axisCubic (h : Bends previous command next) : Still axisCubic previous command next := by
  rw [Still, axisCubic]
  split
  · rfl
  · next c hc =>
    have hbends := bends_of_asCubic h hc
    simp only [Cubic.bends, Bool.and_eq_true, Bool.not_eq_true'] at hbends
    obtain ⟨⟨-, hxs⟩, hys⟩ := hbends
    have hx : [.zero, c.x1, c.x2, c.x].all Binary64.isZero = false := by
      simpa [and_assoc] using fun _ => hxs
    have hy : [.zero, c.y1, c.y2, c.y].all Binary64.isZero = false := by
      simpa [and_assoc] using fun _ => hys
    simp only [hx, hy, Bool.false_and, Bool.false_eq_true, if_false, ite_self]

lemma still_orphanSmooth (h : Bends previous command next) (hwell : command.WellFormed) :
    Still orphanSmooth previous command next := by
  rw [Still, orphanSmooth, not_isOrphanSmooth h hwell]
  rfl

lemma still_contractSmooth (h : Bends previous command next) (hwell : command.WellFormed) :
    Still contractSmooth previous command next := by
  rw [Still, contractSmooth]
  split
  · next x1 y1 rest ho =>
    refine if_neg fun hcond => ?_
    simp only [Bool.and_eq_true] at hcond
    obtain ⟨⟨⟨hrelative, hx1⟩, hy1⟩, -⟩ := hcond
    rw [Command.WellFormed, kind_of_isRelative hrelative] at hwell
    obtain ⟨a, b, x2, y2, x, y, ho'⟩ := exists_of_length_six hwell
    have hc : command.asCubic previous = some ⟨a, b, x2, y2, x, y⟩ := by
      rw [Command.asCubic, hrelative, ho']
      rfl
    have hbends := bends_of_asCubic h hc
    obtain ⟨rfl, hrest⟩ := List.cons.inj (ho.symm.trans ho')
    obtain ⟨rfl, -⟩ := List.cons.inj hrest
    simp [Cubic.bends, hx1, hy1] at hbends
  · rfl

lemma windows_of_forall {holds : Command → Prop} (h : ∀ c ∈ commands, holds c) :
    Windows (fun _ command _ => holds command) previous commands := by
  induction commands generalizing previous with
  | nil => trivial
  | cons command rest ih =>
    obtain ⟨hcommand, hrest⟩ := List.forall_mem_cons.mp h
    exact ⟨hcommand, ih hrest⟩

lemma not_isCubic_of_isBreak (h : command.isBreak) : command.kind.isCubic = false := by
  rw [Command.isBreak, Bool.or_eq_true, beq_iff_eq, beq_iff_eq] at h
  rcases h with hk | hk <;> rw [hk] <;> rfl

lemma drawn_bends : Drawn Bends where
  sees _ _ _ _ _ := id
  gap {command} hbreak previous next := by
    cases hc : command.asCubic previous with
    | none => rw [Bends, hc]; rfl
    | some c => cases (not_isCubic_of_isBreak hbreak).symm.trans (kind_of_asCubic hc)
  after {gap other} hgap hother command next h := by
    have horphan : command.isOrphanSmooth (some other) = command.isOrphanSmooth (some gap) := by
      rw [Command.isOrphanSmooth, Command.isOrphanSmooth, Option.any_some, Option.any_some,
        not_isCubic_of_isBreak hgap, not_isCubic_of_isBreak hother]
    rw [Bends, Command.asCubic] at h ⊢
    rwa [horphan]

lemma Bends.after {before : Command} (h : Bends (some before) command next) (hwell : command.WellFormed)
    (hbefore : before.kind.isCubic = false) (other : Option Command) : Bends other command next := by
  have hsmooth : command.isRelative .smoothCubic = false := by
    have horphan := not_isOrphanSmooth h hwell
    rwa [Command.isOrphanSmooth, Option.any_some, hbefore, Bool.not_false, Bool.and_true] at horphan
  rw [Bends, Command.asCubic, Command.isOrphanSmooth, hsmooth] at h ⊢
  exact h

lemma not_isCubic_of_axis (h : isRelativeAxis command) : command.kind.isCubic = false := by
  rcases kind_of_isRelativeAxis h with hk | hk <;> rw [hk] <;> rfl

lemma bends_mergeAxis (hwell : ∀ c ∈ commands, c.WellFormed) (h : Windows Bends none commands) :
    Windows Bends none (sweep mergeAxis none commands) := by
  have hboth : Windows _ none ((none : Option Command).toList ++ commands) :=
    (windows_of_forall hwell).and h
  refine (windows_sweep shortens_mergeAxis (fun _ _ _ _ _ => id) ?_ ?_ hboth).imp fun _ _ _ => And.right
  · intro before previous command rest hdrop hwindows
    obtain hcase | ⟨-, hzero, -⟩ | ⟨_, a, b, -, -, -, -, -, -, hcase⟩ :=
      mergeAxis_cases previous command rest.head?
    · cases hcase.symm.trans hdrop
    · have hplain := not_isCubic_of_axis (Bool.and_eq_true_iff.mp hzero).1
      cases previous with
      | none => exact hwindows.2.after fun _ _ hok => ⟨hok.1, hok.2.after hok.1 hplain _⟩
      | some previous =>
        exact ⟨hwindows.1, hwindows.2.2.after fun _ _ hok => ⟨hok.1, hok.2.after hok.1 hplain _⟩⟩
    · cases hcase.symm.trans hdrop
  · intro before previous command rest other hmerge hwindows
    obtain hcase | ⟨hcase, -⟩ | ⟨_, a, b, -, -, ho, haxis, -, -, hcase⟩ :=
      mergeAxis_cases (some previous) command rest.head?
    · cases hcase.symm.trans hmerge
    · cases hcase.symm.trans hmerge
    · obtain rfl := Edit.merge.inj (hcase.symm.trans hmerge)
      have hplain := not_isCubic_of_axis haxis
      refine ⟨⟨?_, ?_⟩, hwindows.2.2.after fun _ _ hok => ⟨hok.1, hok.2.after hok.1 hplain _⟩⟩
      · have hlength := hwindows.2.1.1
        rw [Command.WellFormed, ho] at hlength
        exact hlength
      · rw [Bends]
        cases hc : Command.asCubic before { letter := command.letter, operands := [a + b] } with
        | none => rfl
        | some c =>
          have hcubic := kind_of_asCubic hc
          cases hplain.symm.trans hcubic

end Bends

section Flat

def Command.flat (command : Command) : Command :=
  match lineToAxis none command none with
  | .replace other => other
  | _ => command

variable {previous next : Option Command} {command : Command} {commands : List Command}

lemma flat_cases (command : Command) : command.flat = command ∨
    ∃ x y, command.operands = [x, y] ∧ command.isRelative .line ∧
      (y.isZero ∧ command.flat = command.reshape .horizontal [x] ∨
        y.isZero = false ∧ x.isZero ∧ command.flat = command.reshape .vertical [y]) := by
  rw [Command.flat, lineToAxis]
  split
  · next other heq =>
    split at heq
    · next x y ho =>
      split at heq
      · cases heq
      · next hline =>
        rw [Bool.not_eq_true', Bool.not_eq_false] at hline
        refine Or.inr ⟨x, y, ho, hline, ?_⟩
        split at heq
        · next hy => exact Or.inl ⟨hy, (Edit.replace.inj heq).symm⟩
        · next hy =>
          split at heq
          · next hx =>
            exact Or.inr ⟨Bool.eq_false_iff.mpr hy, hx, (Edit.replace.inj heq).symm⟩
          · cases heq
    · cases heq
  · exact Or.inl rfl

lemma flat_flat (command : Command) : command.flat.flat = command.flat := by
  obtain h | ⟨x, y, -, -, ⟨-, h⟩ | ⟨-, -, h⟩⟩ := flat_cases command
  · rw [h, h]
  · rw [h]
    rfl
  · rw [h]
    rfl

lemma lineToAxis_cases (previous : Option Command) (command : Command) (next : Option Command) :
    lineToAxis previous command next = .keep ∧ command.flat = command ∨
    lineToAxis previous command next = .replace command.flat := by
  have hsame : lineToAxis previous command next = lineToAxis none command none := rfl
  rw [hsame, Command.flat, lineToAxis]
  split
  · split
    · exact Or.inl ⟨rfl, rfl⟩
    · split
      · exact Or.inr rfl
      · split
        · exact Or.inr rfl
        · exact Or.inl ⟨rfl, rfl⟩
  · exact Or.inl ⟨rfl, rfl⟩

lemma sweep_lineToAxis (previous : Option Command) (commands : List Command) :
    sweep lineToAxis previous commands = previous.toList ++ commands.map Command.flat := by
  induction commands generalizing previous with
  | nil => rw [sweep, List.map_nil, List.append_nil]
  | cons command rest ih =>
    obtain ⟨hcase, hflat⟩ | hcase := lineToAxis_cases previous command rest.head?
    · rw [sweep, hcase, List.map_cons, hflat]
      exact congrArg (previous.toList ++ ·) (ih (some command))
    · rw [sweep, hcase, List.map_cons]
      exact congrArg (previous.toList ++ ·) (ih (some command.flat))

lemma isCubic_flat (command : Command) : command.flat.kind.isCubic = command.kind.isCubic := by
  obtain h | ⟨x, y, -, hline, ⟨-, h⟩ | ⟨-, -, h⟩⟩ := flat_cases command
  · rw [h]
  · rw [h, kind_of_isRelative hline]
    rfl
  · rw [h, kind_of_isRelative hline]
    rfl

lemma asCubic_flat (previous : Option Command) (command : Command) :
    command.flat.asCubic (previous.map Command.flat) = command.asCubic previous := by
  have hprevious : (previous.map Command.flat).any (fun before => !before.kind.isCubic) =
      previous.any fun before => !before.kind.isCubic := by
    rw [Option.any_map]
    exact congrArg (previous.any ·) (funext fun before => congrArg (!·) (isCubic_flat before))
  have hline : ∀ {c : Command} {q : Option Command}, c.kind.isCubic = false → c.asCubic q = none := by
    intro c q hk
    cases hc : c.asCubic q with
    | none => rfl
    | some curve => cases hk.symm.trans (kind_of_asCubic hc)
  obtain h | ⟨x, y, -, hrelative, -⟩ := flat_cases command
  · rw [h, Command.asCubic, Command.asCubic, Command.isOrphanSmooth, Command.isOrphanSmooth, hprevious]
  · have hk : command.kind.isCubic = false := by
      rw [kind_of_isRelative hrelative]
      rfl
    rw [hline hk, hline ((isCubic_flat command).trans hk)]

lemma bends_flat : Windows Bends previous commands ↔
    Windows Bends (previous.map Command.flat) (commands.map Command.flat) := by
  induction commands generalizing previous with
  | nil => exact Iff.rfl
  | cons command rest ih =>
    have hfirst : Bends (previous.map Command.flat) command.flat (rest.map Command.flat).head? ↔
        Bends previous command rest.head? := by
      rw [Bends, Bends, asCubic_flat]
    exact and_congr hfirst.symm ih

end Flat

/-- What a path is like that the rules leave alone. -/
structure Fixed (commands : List Command) : Prop where
  bends : Windows Bends none commands
  flat : ∀ c ∈ commands, c.flat = c
  merged : Windows (Still mergeAxis) none commands
  fresh : Fresh commands

section Fixed

variable {commands : List Command}

lemma simplify_of_bends (hwell : ∀ c ∈ commands, c.WellFormed) (h : Windows Bends none commands) :
    simplify commands =
      Rule.cleanMoves.apply (sweep zeroAxis none (sweep mergeAxis none (commands.map Command.flat))) := by
  have hboth := (windows_of_forall hwell).and h
  have hstraight : sweep straightCubic none commands = commands :=
    sweep_of_still (h.imp fun _ _ _ => still_straightCubic)
  have haxis : sweep axisCubic none commands = commands :=
    sweep_of_still (h.imp fun _ _ _ => still_axisCubic)
  have horphan : sweep orphanSmooth none commands = commands :=
    sweep_of_still (hboth.imp fun _ _ _ hok => still_orphanSmooth hok.2 hok.1)
  have hcontract : sweep contractSmooth none commands = commands :=
    sweep_of_still (hboth.imp fun _ _ _ hok => still_contractSmooth hok.2 hok.1)
  simp only [simplify, Rule.all, List.foldl_cons, List.foldl_nil, Rule.apply.eq_1, Rule.apply.eq_2,
    Rule.apply.eq_3, Rule.apply.eq_4, Rule.apply.eq_5, Rule.apply.eq_6, Rule.apply.eq_7, hstraight, haxis,
    horphan, hcontract, sweep_lineToAxis, Option.toList_none, List.nil_append]

lemma sweep_zeroAxis (commands : List Command) :
    sweep zeroAxis none (sweep mergeAxis none commands) = sweep mergeAxis none commands :=
  sweep_of_still ((windows_mergeAxis commands).imp fun _ _ _ => still_zeroAxis)

theorem Fixed.simplify (h : Fixed commands) (hwell : ∀ c ∈ commands, c.WellFormed) :
    simplify commands = commands := by
  have hflat : commands.map Command.flat = commands :=
    (List.map_congr_left h.flat).trans (List.map_id' commands)
  have hmerge : sweep mergeAxis none commands = commands := sweep_of_still h.merged
  rw [simplify_of_bends hwell h.bends, hflat, sweep_zeroAxis, hmerge, cleanMoves_of_fresh h.fresh]

lemma forall_of_windows {holds : Command → Prop} {previous : Option Command}
    (h : Windows (fun _ command _ => holds command) previous commands) : ∀ c ∈ commands, holds c := by
  induction commands generalizing previous with
  | nil => simp
  | cons command rest ih => exact List.forall_mem_cons.mpr ⟨h.1, ih h.2⟩

lemma flat_of_kind {command : Command} (h : command.kind ≠ .line) : command.flat = command := by
  obtain hflat | ⟨-, -, -, hline, -⟩ := flat_cases command
  · exact hflat
  · exact absurd (kind_of_isRelative hline) h

lemma drawn_flat : Drawn fun _ command _ => command.flat = command where
  sees _ _ _ _ _ := id
  gap {command} hbreak _ _ := by
    refine flat_of_kind fun hk => ?_
    rw [Command.isBreak, hk] at hbreak
    cases hbreak
  after _ _ _ _ := id

lemma reflectsPen_of_isBreak {command : Command} (h : command.isBreak) (follower : Kind) :
    reflectsPen (some command) follower = true := by
  rw [Command.isBreak, Bool.or_eq_true, beq_iff_eq, beq_iff_eq] at h
  rcases h with h | h <;> cases follower <;> simp [reflectsPen, h, Kind.isCubic, Kind.isQuadratic]

lemma not_axis_of_isBreak {command : Command} (h : command.isBreak) : isRelativeAxis command = false := by
  rw [Bool.eq_false_iff]
  intro haxis
  rw [Command.isBreak] at h
  rcases kind_of_isRelativeAxis haxis with hk | hk <;> rw [hk] at h <;> cases h

lemma drawn_merged : Drawn (Still mergeAxis) where
  sees := sees_still_mergeAxis
  gap {command} hbreak previous next := by
    have haxis := not_axis_of_isBreak hbreak
    refine still_mergeAxis_iff.mpr ⟨fun hzero => ?_, fun _ _ _ _ _ _ haxis' => ?_⟩
    · cases haxis.symm.trans (Bool.and_eq_true_iff.mp hzero.1).1
    · cases haxis.symm.trans haxis'
  after {gap other} hgap hother command next h := by
    rw [still_mergeAxis_iff] at h ⊢
    refine ⟨fun hzero => h.1 ⟨hzero.1, ?_⟩, ?_⟩
    · cases Command.follower? next with
      | none => rfl
      | some kind => exact reflectsPen_of_isBreak hgap kind
    · rintro before hbefore a b - - haxis hletter
      obtain rfl := Option.some.inj hbefore
      cases (not_axis_of_isBreak hother).symm.trans ((isRelativeAxis_congr hletter).trans haxis)

lemma wellFormed_flat {command : Command} (h : command.WellFormed) : command.flat.WellFormed := by
  obtain hflat | ⟨x, y, -, -, ⟨-, hflat⟩ | ⟨-, -, hflat⟩⟩ := flat_cases command
  · rwa [hflat]
  · rw [hflat]
    rfl
  · rw [hflat]
    rfl

lemma windows_flat_mergeAxis (commands : List Command) :
    Windows (fun _ command _ => command.flat = command) none
      (sweep mergeAxis none (commands.map Command.flat)) := by
  have hlines : Windows (fun _ command _ => command.flat = command) none
      ((none : Option Command).toList ++ commands.map Command.flat) := by
    refine windows_of_forall fun c hc => ?_
    obtain ⟨c, -, rfl⟩ := List.mem_map.mp hc
    exact flat_flat c
  refine windows_sweep shortens_mergeAxis drawn_flat.sees ?_ ?_ hlines
  · intro before previous command rest _ hwindows
    cases previous with
    | none => exact hwindows.2.after fun _ _ => id
    | some previous => exact ⟨hwindows.1, hwindows.2.2.after fun _ _ => id⟩
  · intro before previous command rest other hmerge hwindows
    obtain hcase | ⟨hcase, -⟩ | ⟨_, a, b, -, -, -, haxis, -, -, hcase⟩ :=
      mergeAxis_cases (some previous) command rest.head?
    · cases hcase.symm.trans hmerge
    · cases hcase.symm.trans hmerge
    · obtain rfl := Edit.merge.inj (hcase.symm.trans hmerge)
      refine ⟨flat_of_kind fun hline => ?_, hwindows.2.2.after fun _ _ => id⟩
      rcases kind_of_isRelativeAxis haxis with hk | hk
      all_goals cases hk.symm.trans hline

/-- A path whose cubics bend is simplified to one that no rule changes. -/
theorem fixed_simplify (hwell : ∀ c ∈ commands, c.WellFormed) (h : Windows Bends none commands) :
    Fixed (simplify commands) := by
  have hflatWell : ∀ c ∈ commands.map Command.flat, c.WellFormed := by
    intro c hc
    obtain ⟨line, hline, rfl⟩ := List.mem_map.mp hc
    exact wellFormed_flat (hwell line hline)
  have hflat := windows_flat_mergeAxis commands
  rw [simplify_of_bends hwell h, sweep_zeroAxis]
  exact ⟨drawn_bends.cleanMoves (bends_mergeAxis hflatWell (bends_flat.mp h)),
    forall_of_windows (drawn_flat.cleanMoves hflat), drawn_merged.cleanMoves (windows_mergeAxis _),
    fresh_cleanMoves _⟩

end Fixed

end TersePath
