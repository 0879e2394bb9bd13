import TersePath.Proofs.Path.Arity

/-! Paths with nothing left to shorten. What one rule brings about has to survive the rules after it, which
drop and merge commands and so make new neighbours: no line is ever dropped in front of a cubic that
starts along its first control point, since behind a line there is none. -/

namespace TersePath

open Edit

section Contracted

variable {previous next : Option Command} {command before : Command} {commands : List Command}

lemma still_contractSmooth_iff : Still contractSmooth previous command next ↔
    ∀ x1 y1 rest, command.operands = x1 :: y1 :: rest → command.isRelative .cubic → x1.isZero →
      y1.isZero → previous.any isRelativeLine = false := by
  constructor
  · intro h x1 y1 rest ho hcubic hx hy
    rw [Still, contractSmooth, ho] at h
    rw [← Bool.not_eq_true]
    intro hline
    simp [hcubic, hx, hy, hline] at h
  · intro h
    obtain hkeep | ⟨x1, y1, rest, ho, hcubic, hx, hy, hline, -⟩ := contractSmooth_cases previous command next
    · exact hkeep
    · cases hline.symm.trans (h x1 y1 rest ho hcubic hx hy)

lemma still_contractSmooth_of_kind (h : command.kind ≠ .cubic) :
    Still contractSmooth previous command next :=
  still_contractSmooth_iff.mpr fun _ _ _ _ hcubic _ _ => absurd (kind_of_isRelative hcubic) h

lemma Still.after_line (h : Still contractSmooth (some before) command next)
    (hline : isRelativeLine before) (other : Option Command) : Still contractSmooth other command next := by
  rw [still_contractSmooth_iff] at h ⊢
  intro x1 y1 rest ho hcubic hx hy
  cases hline.symm.trans (h x1 y1 rest ho hcubic hx hy)

lemma isRelativeLine_of_axis (h : isRelativeAxis command) : isRelativeLine command := by
  rw [isRelativeAxis, Bool.or_eq_true] at h
  rw [isRelativeLine, Bool.or_eq_true, Bool.or_eq_true]
  exact h.imp Or.inr id

lemma kind_ne_cubic_of_axis (h : isRelativeAxis command) : command.kind ≠ .cubic := by
  rcases kind_of_isRelativeAxis h with hk | hk <;> simp [hk]

lemma isRelativeLine_flat (command : Command) : isRelativeLine command.flat = isRelativeLine command := by
  obtain h | ⟨x, y, -, hline, ⟨-, h⟩ | ⟨-, -, h⟩⟩ := flat_cases command
  · rw [h]
  · rw [h, isRelativeLine, isRelativeLine, hline]
    rfl
  · rw [h, isRelativeLine, isRelativeLine, hline]
    rfl

lemma still_contractSmooth_flat (h : Still contractSmooth previous command next) (other : Option Command) :
    Still contractSmooth (previous.map Command.flat) command.flat other := by
  rcases kind_flat command with hflat | ⟨-, hkind | hkind⟩
  · rw [hflat]
    rw [still_contractSmooth_iff] at h ⊢
    intro x1 y1 rest ho hcubic hx hy
    rw [Option.any_map]
    exact (congrArg (previous.any ·) (funext isRelativeLine_flat)).trans (h x1 y1 rest ho hcubic hx hy)
  · exact still_contractSmooth_of_kind (by simp [hkind])
  · exact still_contractSmooth_of_kind (by simp [hkind])

lemma windows_contractSmooth_flat (h : Windows (Still contractSmooth) previous commands) :
    Windows (Still contractSmooth) (previous.map Command.flat) (commands.map Command.flat) := by
  induction commands generalizing previous with
  | nil => trivial
  | cons command rest ih => exact ⟨still_contractSmooth_flat h.1 _, ih h.2⟩

lemma contractSmooth_single (previous : Option Command) (command : Command) (next : Option Command) :
    contractSmooth previous command next = .keep ∨
      ∃ other, contractSmooth previous command next = .replace other ∧ other.kind ≠ .cubic := by
  obtain hkeep | ⟨_, _, rest, -, -, -, -, -, hreplace⟩ := contractSmooth_cases previous command next
  · exact Or.inl hkeep
  · exact Or.inr ⟨_, hreplace, by simp [Command.reshape, Command.kind]⟩

lemma windows_contractSmooth_after (h : Still contractSmooth previous command none) :
    Windows (Still contractSmooth) previous (sweep contractSmooth (some command) commands) := by
  induction commands generalizing previous command with
  | nil => exact ⟨h, trivial⟩
  | cons other rest ih =>
    obtain hkeep | ⟨line, hreplace, hkind⟩ := contractSmooth_single (some command) other rest.head?
    · rw [sweep, hkeep]
      exact ⟨h, ih hkeep⟩
    · rw [sweep, hreplace]
      exact ⟨h, ih (still_contractSmooth_of_kind hkind)⟩

theorem windows_contractSmooth (commands : List Command) :
    Windows (Still contractSmooth) none (sweep contractSmooth none commands) := by
  cases commands with
  | nil => trivial
  | cons command rest =>
    obtain hkeep | ⟨other, hreplace, hkind⟩ := contractSmooth_single none command rest.head?
    · rw [sweep, hkeep]
      exact windows_contractSmooth_after hkeep
    · rw [sweep, hreplace]
      exact windows_contractSmooth_after (still_contractSmooth_of_kind hkind)

/-- A line that goes away or grows leaves no cubic that could do without its first control point. -/
lemma windows_contractSmooth_mergeAxis (h : Windows (Still contractSmooth) none commands) :
    Windows (Still contractSmooth) none (sweep mergeAxis none commands) := by
  have hlines : Windows (Still contractSmooth) none ((none : Option Command).toList ++ commands) := h
  refine windows_sweep shortens_mergeAxis (fun _ _ _ _ _ => id) ?_ ?_ hlines
  · intro before previous command rest hdrop hwindows
    obtain hcase | ⟨-, hzero, -⟩ | ⟨_, a, b, -, -, -, -, -, -, hcase⟩ :=
      mergeAxis_cases previous command rest.head?
    · cases hcase.symm.trans hdrop
    · have hline := isRelativeLine_of_axis (Bool.and_eq_true_iff.mp hzero).1
      cases previous with
      | none => exact hwindows.2.after fun _ _ hstill => hstill.after_line hline _
      | some previous =>
        exact ⟨hwindows.1, hwindows.2.2.after fun _ _ hstill => hstill.after_line hline _⟩
    · cases hcase.symm.trans hdrop
  · intro before previous command rest other hmerge hwindows
    obtain hcase | ⟨hcase, -⟩ | ⟨_, a, b, -, -, -, haxis, -, -, hcase⟩ :=
      mergeAxis_cases (some previous) command rest.head?
    · cases hcase.symm.trans hmerge
    · cases hcase.symm.trans hmerge
    · obtain rfl := Edit.merge.inj (hcase.symm.trans hmerge)
      exact ⟨still_contractSmooth_of_kind (kind_ne_cubic_of_axis haxis),
        hwindows.2.2.after fun _ _ hstill => hstill.after_line (isRelativeLine_of_axis haxis) _⟩

lemma isRelativeLine_of_isBreak (h : command.isBreak) : isRelativeLine command = false := by
  rw [← Bool.not_eq_true]
  intro hline
  rw [Command.isBreak, Bool.or_eq_true, beq_iff_eq, beq_iff_eq] at h
  rw [isRelativeLine, Bool.or_eq_true, Bool.or_eq_true] at hline
  rcases hline with (hline | hline) | hline <;> simp [kind_of_isRelative hline] at h

lemma drawn_contracted : Drawn (Still contractSmooth) where
  sees _ _ _ _ _ := id
  gap {command} hbreak previous next := by
    refine still_contractSmooth_of_kind fun hk => ?_
    rw [Command.isBreak, hk] at hbreak
    cases hbreak
  after {gap other} _ hother command next _ := by
    refine still_contractSmooth_iff.mpr fun _ _ _ _ _ _ _ => ?_
    rw [Option.any_some, isRelativeLine_of_isBreak hother]

end Contracted

/-- A command between its neighbours, on a path with nothing left to shorten. -/
structure Terse (previous : Option Command) (command : Command) (next : Option Command) : Prop where
  ends : next = none → command.kind ≠ .move
  afterMove : ∀ before ∈ previous, before.kind = .move → command.kind ≠ .move ∧ command.kind ≠ .close
  slanted : command.isRelative .line → ∀ x ∈ command.operands, x.isZero = false
  merged : ∀ before ∈ previous, isRelativeAxis command → before.letter = command.letter →
    ∀ a ∈ before.operands, ∀ b ∈ command.operands, sameDirection a b = false
  needed : isZeroAxis command →
    ∃ follower, Command.follower? next = some follower ∧ reflectsPen previous follower = false
  contracted : ∀ before ∈ previous, isRelativeLine before → command.isRelative .cubic →
    ∃ x ∈ command.operands.take 2, x.isZero = false

section Terse

variable {previous next : Option Command} {command : Command} {commands : List Command}

lemma singleton_of_isRelativeAxis (hwell : command.WellFormed) (h : isRelativeAxis command) :
    ∃ x, command.operands = [x] := by
  rw [Command.WellFormed] at hwell
  rcases kind_of_isRelativeAxis h with hk | hk <;> rw [hk] at hwell
  · exact List.length_eq_one_iff.mp hwell
  · exact List.length_eq_one_iff.mp hwell

lemma follower_of_still (h : Still mergeAxis previous command next) (hzero : isZeroAxis command) :
    ∃ follower, Command.follower? next = some follower ∧ reflectsPen previous follower = false := by
  have hdrop := (still_mergeAxis_iff.mp h).1
  cases hfollower : Command.follower? next with
  | none => exact absurd ⟨hzero, by rw [hfollower]; rfl⟩ hdrop
  | some follower =>
    refine ⟨follower, rfl, Bool.eq_false_iff.mpr fun hreflects => hdrop ⟨hzero, ?_⟩⟩
    rwa [hfollower, Option.all_some]

lemma not_isZero_of_flat (hwell : command.WellFormed) (hflat : command.flat = command)
    (h : command.isRelative .line) : ∀ x ∈ command.operands, x.isZero = false := by
  have hk := kind_of_isRelative h
  rw [Command.WellFormed, hk] at hwell
  obtain ⟨x, y, ho⟩ := exists_of_length_two hwell
  have hkept : ∀ kind operands, command.flat = command.reshape kind operands → kind = .line := by
    intro kind operands heq
    rw [hflat] at heq
    exact (congrArg Command.kind heq).symm.trans hk
  have hy : y.isZero = false := Bool.eq_false_iff.mpr fun hy => by
    cases hkept .horizontal [x] (by simp [Command.flat, lineToAxis, ho, h, hy])
  have hx : x.isZero = false := Bool.eq_false_iff.mpr fun hx => by
    cases hkept .vertical [y] (by simp [Command.flat, lineToAxis, ho, h, hx, hy])
  simp [ho, hx, hy]

lemma windows_wellFormed (hprevious : ∀ b ∈ previous, b.WellFormed) (h : ∀ c ∈ commands, c.WellFormed) :
    Windows (fun previous command _ => (∀ b ∈ previous, b.WellFormed) ∧ command.WellFormed) previous
      commands := by
  induction commands generalizing previous with
  | nil => trivial
  | cons command rest ih =>
    obtain ⟨hcommand, hrest⟩ := List.forall_mem_cons.mp h
    exact ⟨⟨hprevious, hcommand⟩, ih (by simpa using hcommand) hrest⟩

lemma Fresh.windows_afterMove (h : Fresh commands) : Windows
    (fun previous command _ => ∀ b ∈ previous, b.kind = .move → command.isBreak = false) none commands :=
  h.windows fun _ _ _ hopen => hopen

/-- The rules on cubics come first, those on lines next, and moves and closes are cleaned up at last. -/
lemma simplify_eq (commands : List Command) : simplify commands = Rule.cleanMoves.apply
    (sweep mergeAxis none (sweep lineToAxis none (sweep contractSmooth none (sweep orphanSmooth none
      (sweep axisCubic none (sweep straightCubic none commands)))))) := by
  simp only [simplify, Rule.all, List.foldl_cons, List.foldl_nil, Rule.apply.eq_1, Rule.apply.eq_2,
    Rule.apply.eq_3, Rule.apply.eq_4, Rule.apply.eq_5, Rule.apply.eq_6, Rule.apply.eq_7, sweep_zeroAxis]

lemma windows_lines (curves : List Command) :
    let lines := sweep mergeAxis none (sweep lineToAxis none (sweep contractSmooth none curves))
    Windows (Still contractSmooth) none lines ∧ Windows (Still mergeAxis) none lines ∧
      Windows (fun _ command _ => command.flat = command) none lines := by
  rw [sweep_lineToAxis, Option.toList_none, List.nil_append]
  exact ⟨windows_contractSmooth_mergeAxis (windows_contractSmooth_flat (windows_contractSmooth _)),
    windows_mergeAxis _, windows_flat_mergeAxis _⟩

/-- Where all cubics bend, the rules leave a path that they do not change again. -/
theorem simplify_simplify_of_bends (hwell : ∀ c ∈ commands, c.WellFormed) (h : Windows Bends none commands) :
    simplify (simplify commands) = simplify commands :=
  (fixed_simplify hwell h).simplify (maintained_wellFormed.forall_simplify hwell)

/-- What the rules leave has nothing in it that a rule was meant to take out. -/
theorem terse_simplify (hwell : ∀ c ∈ commands, c.WellFormed) (hhead : BeginsWithMove commands) :
    BeginsWithMove (simplify commands) ∧ Windows Terse none (simplify commands) := by
  refine ⟨beginsWithMove_simplify hhead, ?_⟩
  have hwells := windows_wellFormed (by simp : ∀ b ∈ (none : Option Command), b.WellFormed)
    (maintained_wellFormed.forall_simplify hwell)
  rw [simplify_eq] at hwells ⊢
  obtain ⟨hcontracted, hmerged, hflat⟩ := windows_lines (sweep orphanSmooth none
    (sweep axisCubic none (sweep straightCubic none commands)))
  have hfresh := fresh_cleanMoves (sweep mergeAxis none (sweep lineToAxis none (sweep contractSmooth none
    (sweep orphanSmooth none (sweep axisCubic none (sweep straightCubic none commands))))))
  have hmoves := hwells.and (hfresh.and hfresh.windows_afterMove)
  have hrules := (drawn_contracted.cleanMoves hcontracted).and
    ((drawn_merged.cleanMoves hmerged).and (drawn_flat.cleanMoves hflat))
  refine (hmoves.and hrules).imp ?_
  rintro previous command next ⟨⟨hwell, hdraws, hafter⟩, hcontracted, hmerged, hflat⟩
  refine ⟨fun hend hk => ?_, fun before hb hk => ?_, not_isZero_of_flat hwell.2 hflat, ?_,
    follower_of_still hmerged, ?_⟩
  · obtain ⟨d, hd, -⟩ := hdraws hk
    cases hend.symm.trans hd
  · have hopen := hafter before hb hk
    refine ⟨fun hmove => ?_, fun hclose => ?_⟩
    · cases hopen.symm.trans (isBreak_of_move hmove)
    · cases hopen.symm.trans (isBreak_of_close hclose)
  · intro before hb haxis hletter a ha b hcommand
    have hbefore : isRelativeAxis before = true := (isRelativeAxis_congr hletter).trans haxis
    obtain ⟨x, hx⟩ := singleton_of_isRelativeAxis (hwell.1 before hb) hbefore
    obtain ⟨y, hy⟩ := singleton_of_isRelativeAxis hwell.2 haxis
    rw [hx, List.mem_singleton] at ha
    rw [hy, List.mem_singleton] at hcommand
    subst ha hcommand
    exact Bool.eq_false_iff.mpr ((still_mergeAxis_iff.mp hmerged).2 before hb _ _ hx hy haxis hletter)
  · intro before hb hline hcubic
    have hlength := hwell.2
    rw [Command.WellFormed, kind_of_isRelative hcubic] at hlength
    obtain ⟨x1, y1, x2, y2, x, y, ho⟩ := exists_of_length_six hlength
    by_contra hzero
    simp only [ho, List.take_succ_cons, List.take_zero, List.mem_cons, List.not_mem_nil, or_false,
      exists_eq_or_imp, exists_eq_left, not_or, Bool.not_eq_false] at hzero
    have hnone := still_contractSmooth_iff.mp hcontracted x1 y1 _ ho hcubic hzero.1 hzero.2
    rw [Option.mem_def.mp hb, Option.any_some, hline] at hnone
    cases hnone

end Terse

namespace Example

def untidy : List Command :=
  let n := Binary64.ofInt
  [ { letter := ⟨.move, true⟩, operands := [n 3, n 4] },
    { letter := ⟨.close, true⟩, operands := [] },
    { letter := ⟨.cubic, false⟩, operands := [n 1, n 2, n 3, n 4, n 5, n 6] },
    { letter := ⟨.horizontal, false⟩, operands := [n 0] },
    { letter := ⟨.horizontal, false⟩, operands := [n 0] },
    { letter := ⟨.smoothCubic, true⟩, operands := [n 5, n 5, n 10, n 0] },
    { letter := ⟨.line, false⟩, operands := [n 0, n 5] },
    { letter := ⟨.vertical, false⟩, operands := [n 2] },
    { letter := ⟨.cubic, false⟩, operands := [n 0, n 0, n 1, n 2, n 3, n 5] },
    { letter := ⟨.horizontal, false⟩, operands := [.nan] },
    { letter := ⟨.horizontal, false⟩, operands := [n (-2)] },
    { letter := ⟨.close, false⟩, operands := [] },
    { letter := ⟨.move, false⟩, operands := [n 1, n 1] },
    { letter := ⟨.move, false⟩, operands := [n 2, n 2] } ]

end Example

theorem terse_simplify_untidy :
    (∀ c ∈ Example.untidy, c.WellFormed) ∧ BeginsWithMove Example.untidy ∧
      (simplify Example.untidy).map (fun c => c.letter.char) =
        ['M', 'c', 'h', 'S', 'v', 's', 'h', 'h', 'z'] ∧
      BeginsWithMove (simplify Example.untidy) ∧ Windows Terse none (simplify Example.untidy) := by
  have hwell : ∀ c ∈ Example.untidy, c.WellFormed := by decide +kernel
  have hhead : BeginsWithMove Example.untidy := by simp [BeginsWithMove, Example.untidy, Command.kind]
  exact ⟨hwell, hhead, by decide +kernel, terse_simplify hwell hhead⟩

end TersePath
