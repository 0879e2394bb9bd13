import TersePath.Proofs.Path.Reread
import TersePath.Proofs.Path.Windows

namespace TersePath

open Edit

section Axis

/-- The same command but for how far its steps go. -/
structure Command.SameWay (command other : Command) : Prop where
  letter : other.letter = command.letter
  signs : other.operands.map signClass = command.operands.map signClass

variable {previous next : Option Command} {command other : Command}

lemma still_mergeAxis_iff : Still mergeAxis previous command next ↔
    ¬(isZeroAxis command ∧ (Command.follower? next).all (reflectsPen previous)) ∧
    ∀ before ∈ previous, ∀ a b, before.operands = [a] → command.operands = [b] →
      isRelativeAxis command → before.letter = command.letter → ¬sameDirection a b := by
  constructor
  · intro h
    refine ⟨fun hdrop => ?_, ?_⟩
    · rw [Still, mergeAxis.eq_def, if_pos (Bool.and_eq_true_iff.mpr hdrop)] at h
      cases h
    · rintro before rfl a b hbefore ho haxis hletter hsame
      rw [Still, mergeAxis] at h
      split at h
      · cases h
      · simp [hbefore, ho, haxis, hletter, hsame] at h
  · rintro ⟨hdrop, hmerge⟩
    obtain hkeep | ⟨-, hzero⟩ | ⟨before, a, b, rfl, hbefore, ho, haxis, hletter, hsame, -⟩ :=
      mergeAxis_cases previous command next
    · exact hkeep
    · exact absurd hzero hdrop
    · exact absurd hsame (hmerge before rfl a b hbefore ho haxis hletter)

lemma sees_still_mergeAxis : SeesFollower (Still mergeAxis) := by
  intro previous command next other hnext h
  rw [still_mergeAxis_iff] at h ⊢
  rwa [← hnext]

lemma isRelativeAxis_congr (h : other.letter = command.letter) :
    isRelativeAxis other = isRelativeAxis command := by
  simp only [isRelativeAxis, Command.isRelative, h]

lemma Command.SameWay.isZeroAxis (h : command.SameWay other) :
    isZeroAxis other = isZeroAxis command := by
  have hzero : other.operands.head?.any Binary64.isZero = command.operands.head?.any Binary64.isZero := by
    have hhead := congrArg List.head? h.signs
    rw [List.head?_map, List.head?_map] at hhead
    cases hc : command.operands.head? <;> cases ho : other.operands.head? <;> simp_all
    rw [Bool.eq_iff_iff, Binary64.isZero_iff_signClass, Binary64.isZero_iff_signClass, hhead]
  rw [Edit.isZeroAxis, Edit.isZeroAxis, isRelativeAxis_congr h.letter, hzero]

lemma Command.SameWay.exists_singleton (h : command.SameWay other) {b : Binary64}
    (ho : other.operands = [b]) : ∃ a, command.operands = [a] ∧ signClass a = signClass b := by
  have hsigns := h.signs
  rw [ho] at hsigns
  obtain ⟨a, ha, hab⟩ := List.map_eq_singleton_iff.mp hsigns.symm
  exact ⟨a, ha, hab⟩

lemma Still.sameWay {previous' next' : Option Command}
    (h : Still mergeAxis previous command next) (hcommand : command.SameWay other)
    (hprevious : ∀ b ∈ previous', isRelativeAxis b → ∃ a ∈ previous, a.SameWay b)
    (hfollower : (Command.follower? next').all (reflectsPen previous') →
      (Command.follower? next).all (reflectsPen previous)) :
    Still mergeAxis previous' other next' := by
  rw [still_mergeAxis_iff] at h ⊢
  obtain ⟨hdrop, hmerge⟩ := h
  rw [hcommand.isZeroAxis, isRelativeAxis_congr hcommand.letter]
  refine ⟨fun hzero => hdrop ⟨hzero.1, hfollower hzero.2⟩, ?_⟩
  intro before' hbefore' a' b' hbefore ho haxis hletter
  have haxis' : isRelativeAxis before' = true := by
    rwa [isRelativeAxis_congr (hletter.trans hcommand.letter)]
  obtain ⟨before, hmem, hway⟩ := hprevious before' hbefore' haxis'
  obtain ⟨a, ha, hsign⟩ := hway.exists_singleton hbefore
  obtain ⟨b, hb, hsign'⟩ := hcommand.exists_singleton ho
  have hsame := hmerge before hmem a b ha hb haxis
    (hway.letter.symm.trans (hletter.trans hcommand.letter))
  rwa [sameDirection, hsign, hsign'] at hsame

lemma shortens_mergeAxis : Shortens mergeAxis where
  present previous command next other h := by
    obtain hcase | ⟨hcase, -⟩ | ⟨before, a, b, -, -, -, -, -, -, hcase⟩ :=
      mergeAxis_cases previous command next
    all_goals cases hcase.symm.trans h
  alone command next other h := by
    obtain hcase | ⟨hcase, -⟩ | ⟨before, a, b, hnone, -⟩ := mergeAxis_cases none command next
    · cases hcase.symm.trans h
    · cases hcase.symm.trans h
    · cases hnone
  follower before command next other h := by
    obtain hcase | ⟨hcase, -⟩ | ⟨_, a, b, hbefore, -, -, -, hletter, -, hcase⟩ :=
      mergeAxis_cases (some before) command next
    · cases hcase.symm.trans h
    · cases hcase.symm.trans h
    · obtain rfl := Edit.merge.inj (hcase.symm.trans h)
      simp only [Command.follower?, Option.map_some, Command.kind, Option.some.inj hbefore, hletter]

lemma follower_of_isRelativeAxis (h : isRelativeAxis command) :
    Command.follower? (some command) = none := by
  rcases kind_of_isRelativeAxis h with hk | hk <;> simp [Command.follower?, hk, Kind.isSmooth]

lemma still_of_axis (haxis : isRelativeAxis other) (h : Still mergeAxis previous command (some other)) :
    isZeroAxis command = false ∧ ∀ next, Still mergeAxis previous command next := by
  rw [still_mergeAxis_iff, follower_of_isRelativeAxis haxis] at h
  have hlong : isZeroAxis command = false := Bool.eq_false_iff.mpr fun hzero => h.1 ⟨hzero, rfl⟩
  refine ⟨hlong, fun next => still_mergeAxis_iff.mpr ⟨fun hzero => ?_, h.2⟩⟩
  cases hlong.symm.trans hzero.1

theorem windows_mergeAxis (commands : List Command) :
    Windows (Still mergeAxis) none (sweep mergeAxis none commands) := by
  refine windows_still shortens_mergeAxis sees_still_mergeAxis ?_ ?_ commands
  · intro before previous command next hdrop h
    obtain hcase | ⟨-, hzero, -⟩ | ⟨_, a, b, -, -, -, -, -, -, hcase⟩ :=
      mergeAxis_cases (some previous) command next
    · cases hcase.symm.trans hdrop
    · exact (still_of_axis (Bool.and_eq_true_iff.mp hzero).1 h).2 next
    · cases hcase.symm.trans hdrop
  · intro before previous command next other hmerge h
    obtain hcase | ⟨hcase, -⟩ | ⟨_, a, b, hprevious, ha, -, haxis, hletter, hsame, hcase⟩ :=
      mergeAxis_cases (some previous) command next
    · cases hcase.symm.trans hmerge
    · cases hcase.symm.trans hmerge
    · obtain rfl := Option.some.inj hprevious
      obtain rfl := Edit.merge.inj (hcase.symm.trans hmerge)
      obtain ⟨hlong, hstill⟩ := still_of_axis haxis h
      have hne : signClass a ≠ some 0 := by
        intro hzero
        rw [isZeroAxis, ← isRelativeAxis_congr hletter.symm, haxis, ha] at hlong
        simp [Binary64.isZero_iff_signClass.mpr hzero] at hlong
      refine (hstill next).sameWay ⟨hletter.symm, ?_⟩ (fun b hb _ => ⟨b, hb, rfl, rfl⟩) id
      rw [ha, List.map_singleton, List.map_singleton, Binary64.signClass_add hne hsame]

/-- Where nothing is to be merged, no line of no length is left to be dropped. -/
lemma still_zeroAxis (h : Still mergeAxis previous command next) : Still zeroAxis previous command next := by
  rw [still_mergeAxis_iff] at h
  rw [Still, zeroAxis, if_neg]
  rw [Bool.and_eq_true, canDrop]
  rintro ⟨hzero, hguard⟩
  refine h.1 ⟨hzero, ?_⟩
  cases hfollower : Command.follower? next with
  | none => rfl
  | some kind =>
    rw [hfollower] at hguard
    exact (Bool.and_eq_true_iff.mp hguard).2

end Axis

section Breaks

def Command.isBreak (command : Command) : Bool := command.kind == .move || command.kind == .close

structure Drawn (ok : Option Command → Command → Option Command → Prop) : Prop where
  sees : SeesFollower ok
  gap : ∀ {command : Command}, command.isBreak → ∀ previous next, ok previous command next
  after : ∀ {gap other : Command}, gap.isBreak → other.isBreak →
    ∀ command next, ok (some gap) command next → ok (some other) command next

variable {ok : Option Command → Command → Option Command → Prop} {previous : Option Command}
  {commands : List Command}

lemma isBreak_of_move {command : Command} (h : command.kind = .move) : command.isBreak := by
  rw [Command.isBreak, h]
  rfl

lemma isBreak_of_close {command : Command} (h : command.kind = .close) : command.isBreak := by
  rw [Command.isBreak, h]
  rfl

lemma follower_of_isBreak {command : Command} (h : command.isBreak) :
    Command.follower? (some command) = none := by
  rw [Command.isBreak, Bool.or_eq_true, beq_iff_eq, beq_iff_eq] at h
  rcases h with h | h <;> simp [Command.follower?, h, Kind.isSmooth]

lemma closeAfterMove_cases (previous : Option Command) (command : Command) (next : Option Command) :
    closeAfterMove previous command next = .keep ∧ ¬(command.kind = .close ∧
      ∃ before ∈ previous, before.kind = .move) ∨
    closeAfterMove previous command next = .drop ∧ command.kind = .close ∧
      ∃ before ∈ previous, before.kind = .move := by
  rw [closeAfterMove]
  split
  · next h =>
    simp only [Bool.and_eq_true, beq_iff_eq, Option.any_eq_true] at h
    exact Or.inr ⟨rfl, h⟩
  · next h =>
    simp only [Bool.and_eq_true, beq_iff_eq, Option.any_eq_true] at h
    exact Or.inl ⟨rfl, h⟩

lemma shortens_closeAfterMove : Shortens closeAfterMove where
  present previous command next other h := by
    rcases closeAfterMove_cases previous command next with ⟨hcase, -⟩ | ⟨hcase, -⟩
    all_goals cases hcase.symm.trans h
  alone command next other h := by
    rcases closeAfterMove_cases none command next with ⟨hcase, -⟩ | ⟨hcase, -⟩
    all_goals cases hcase.symm.trans h
  follower before command next other h := by
    rcases closeAfterMove_cases (some before) command next with ⟨hcase, -⟩ | ⟨hcase, -⟩
    all_goals cases hcase.symm.trans h

lemma kind_of_mergeMoves {before command other : Command} {next : Option Command}
    (h : mergeMoves (some before) command next = .merge other) :
    before.kind = .move ∧ command.kind = .move ∧ other.kind = .move := by
  obtain hcase | ⟨_, hbefore, hk, hfirst, ⟨-, hcase⟩ | ⟨-, hcase⟩⟩ :=
    mergeMoves_cases (some before) command next
  · cases hcase.symm.trans h
  · obtain rfl := Edit.merge.inj (hcase.symm.trans h)
    exact ⟨Option.some.inj hbefore ▸ hfirst, hk, hk⟩
  · obtain rfl := Edit.merge.inj (hcase.symm.trans h)
    exact ⟨Option.some.inj hbefore ▸ hfirst, hk, hfirst⟩

lemma not_drop_mergeMoves (previous : Option Command) (command : Command) (next : Option Command) :
    mergeMoves previous command next ≠ .drop := by
  obtain hcase | ⟨_, -, -, -, ⟨-, hcase⟩ | ⟨-, hcase⟩⟩ := mergeMoves_cases previous command next
  all_goals simp [hcase]

lemma shortens_mergeMoves : Shortens mergeMoves where
  present previous command next other h := by
    obtain hcase | ⟨_, -, -, -, ⟨-, hcase⟩ | ⟨-, hcase⟩⟩ := mergeMoves_cases previous command next
    all_goals cases hcase.symm.trans h
  alone command next other h := by cases h
  follower before command next other h := by
    obtain ⟨hbefore, -, hother⟩ := kind_of_mergeMoves h
    rw [follower_of_isBreak (isBreak_of_move hother), follower_of_isBreak (isBreak_of_move hbefore)]

lemma follower_trimMoves (commands : List Command) :
    Command.follower? (trimMoves commands).head? = Command.follower? commands.head? := by
  cases commands with
  | nil => rfl
  | cons command rest =>
    rw [trimMoves_cons]
    split
    · next h =>
      rw [Bool.and_eq_true, beq_iff_eq] at h
      exact (follower_of_isBreak (isBreak_of_move h.1)).symm
    · rfl

lemma windows_trimMoves (hok : SeesFollower ok) (h : Windows ok previous commands) :
    Windows ok previous (trimMoves commands) := by
  induction commands generalizing previous with
  | nil => exact h
  | cons command rest ih =>
    rw [trimMoves_cons]
    split
    · trivial
    · exact ⟨hok _ _ _ _ (follower_trimMoves rest).symm h.1, ih h.2⟩

lemma follower_singleCloses (commands : List Command) :
    Command.follower? (singleCloses commands).head? = Command.follower? commands.head? := by
  induction commands with
  | nil => rfl
  | cons command rest ih =>
    rw [singleCloses]
    split
    · next h =>
      rw [Bool.and_eq_true, beq_iff_eq, Option.any_eq_true] at h
      obtain ⟨hclose, next, hnext, hkind⟩ := h
      rw [ih, hnext, follower_of_isBreak (isBreak_of_close (beq_iff_eq.mp hkind)), List.head?_cons,
        follower_of_isBreak (isBreak_of_close hclose)]
    · rfl

lemma windows_singleCloses (hok : SeesFollower ok)
    (hclose : ∀ previous close other next, close.kind = .close → other.kind = .close →
      ok previous close (some other) → ok (some close) other next → ok previous other next)
    (h : Windows ok previous commands) : Windows ok previous (singleCloses commands) := by
  induction commands generalizing previous with
  | nil => exact h
  | cons command rest ih =>
    rw [singleCloses]
    split
    · next hboth =>
      rw [Bool.and_eq_true, beq_iff_eq, Option.any_eq_true] at hboth
      obtain ⟨hfirst, next, hnext, hkind⟩ := hboth
      obtain ⟨others, rfl⟩ := List.head?_eq_some_iff.mp hnext
      obtain ⟨hcommand, hsecond, hothers⟩ := h
      exact ih ⟨hclose _ _ _ _ hfirst (beq_iff_eq.mp hkind) hcommand hsecond, hothers⟩
    · exact ⟨hok _ _ _ _ (follower_singleCloses rest).symm h.1, ih h.2⟩

lemma Drawn.cleanMoves (hok : Drawn ok) (h : Windows ok none commands) :
    Windows ok none (Rule.cleanMoves.apply commands) := by
  have hclosed : Windows ok none (sweep closeAfterMove none commands) := by
    refine windows_sweep shortens_closeAfterMove hok.sees ?_ ?_ h
    · intro before previous command rest hdrop hwindows
      rcases closeAfterMove_cases previous command rest.head? with
        ⟨hcase, -⟩ | ⟨-, hclose, move, rfl, hmove⟩
      · cases hcase.symm.trans hdrop
      · exact ⟨hok.gap (isBreak_of_move hmove) _ _,
          hwindows.2.2.after (hok.after (isBreak_of_close hclose) (isBreak_of_move hmove))⟩
    · intro before previous command rest other hmerge
      rcases closeAfterMove_cases (some previous) command rest.head? with ⟨hcase, -⟩ | ⟨hcase, -⟩
      all_goals cases hcase.symm.trans hmerge
  have htrimmed : Windows ok none ((none : Option Command).toList ++ trimMoves _) :=
    windows_trimMoves hok.sees hclosed
  refine windows_sweep shortens_mergeMoves hok.sees ?_ ?_ htrimmed
  · exact fun _ _ _ _ hdrop => absurd hdrop (not_drop_mergeMoves _ _ _)
  · intro before previous command rest other hmerge hwindows
    obtain ⟨-, hcommand, hother⟩ := kind_of_mergeMoves hmerge
    exact ⟨hok.gap (isBreak_of_move hother) _ _,
      hwindows.2.2.after (hok.after (isBreak_of_move hcommand) (isBreak_of_move hother))⟩

lemma Drawn.singleCloses (hok : Drawn ok) (h : Windows ok previous commands) :
    Windows ok previous (singleCloses commands) :=
  windows_singleCloses hok.sees
    (fun _ _ _ _ _ hother _ _ => hok.gap (isBreak_of_close hother) _ _) h

end Breaks

section Fresh

def Fresh (commands : List Command) : Prop :=
  Windows (fun _ command next => command.kind = .move → ∃ d ∈ next, d.isBreak = false) none commands

variable {previous next : Option Command} {command other : Command} {commands : List Command}

lemma not_move_of_still (h : Still mergeMoves (some command) other next) (hk : command.kind = .move) :
    other.kind ≠ .move := by
  intro hother
  have hboth : (other.kind == .move && command.kind == .move) = true := by
    rw [hother, hk]
    rfl
  rw [Still, mergeMoves, if_pos hboth] at h
  split at h <;> cases h

lemma head_mergeMoves (hk : command.kind ≠ .move) (commands : List Command) :
    (sweep mergeMoves (some command) commands).head? = some command := by
  cases commands with
  | nil => rfl
  | cons next rest =>
    cases hcase : mergeMoves (some command) next rest.head? with
    | keep => rw [sweep, hcase]; rfl
    | replace other => exact absurd hcase (shortens_mergeMoves.present _ _ _ _)
    | drop => exact absurd hcase (not_drop_mergeMoves _ _ _)
    | merge other => exact absurd (kind_of_mergeMoves hcase).1 hk

lemma head_trimMoves (h : trimMoves commands ≠ []) : (trimMoves commands).head? = commands.head? := by
  cases commands with
  | nil => rfl
  | cons command rest =>
    rw [trimMoves_cons] at h ⊢
    split
    · next hcond => exact absurd (if_pos hcond) h
    · rfl

/-- Without closes right after moves, and without moves at the end, every move leads to another one or
to a command that draws. -/
lemma windows_trimMoves_open (h : Windows (Still closeAfterMove) previous commands) :
    Windows (fun _ command next => command.kind = .move → ∃ d ∈ next, d.kind ≠ .close) previous
      (trimMoves commands) := by
  induction commands generalizing previous with
  | nil => trivial
  | cons command rest ih =>
    rw [trimMoves_cons]
    split
    · trivial
    · next hcond =>
      refine ⟨fun hk => ?_, ih h.2⟩
      have hne : trimMoves rest ≠ [] := by
        intro hempty
        rw [hk, hempty] at hcond
        exact hcond rfl
      rw [head_trimMoves hne]
      cases rest with
      | nil => exact absurd rfl hne
      | cons d others =>
        refine ⟨d, rfl, fun hclose => ?_⟩
        rcases closeAfterMove_cases (some command) d others.head? with ⟨-, hkeep⟩ | ⟨hdrop, -⟩
        · exact hkeep ⟨hclose, command, rfl, hk⟩
        · cases hdrop.symm.trans h.2.1

lemma fresh_mergeMoves (h : Windows (fun _ command next => command.kind = .move →
      ∃ d ∈ next, d.kind ≠ .close) previous (command :: commands)) :
    Windows (fun _ command next => command.kind = .move → ∃ d ∈ next, d.isBreak = false) previous
      (sweep mergeMoves (some command) commands) := by
  induction commands generalizing previous command with
  | nil =>
    refine ⟨fun hk => ?_, trivial⟩
    obtain ⟨d, hd, -⟩ := h.1 hk
    cases hd
  | cons d rest ih =>
    cases hcase : mergeMoves (some command) d rest.head? with
    | replace other => exact absurd hcase (shortens_mergeMoves.present _ _ _ _)
    | drop => exact absurd hcase (not_drop_mergeMoves _ _ _)
    | merge other =>
      rw [sweep, hcase]
      obtain ⟨-, hd, -⟩ := kind_of_mergeMoves hcase
      exact ih ⟨fun _ => h.2.1 hd, h.2.2.after fun _ _ => id⟩
    | keep =>
      rw [sweep, hcase]
      refine ⟨fun hk => ?_, ih h.2⟩
      obtain ⟨_, hd, hclose⟩ := h.1 hk
      obtain rfl := Option.some.inj hd
      have hmove := not_move_of_still hcase hk
      refine ⟨d, head_mergeMoves hmove rest, ?_⟩
      rw [Command.isBreak, beq_eq_false_iff_ne.mpr hmove, beq_eq_false_iff_ne.mpr hclose]
      rfl

lemma fresh_cleanMoves (commands : List Command) : Fresh (Rule.cleanMoves.apply commands) := by
  have hstill : Windows (Still closeAfterMove) none (sweep closeAfterMove none commands) := by
    refine windows_still shortens_closeAfterMove (fun _ _ _ _ _ => id) (fun _ _ _ _ _ => id) ?_ commands
    intro before previous command next other hmerge
    rcases closeAfterMove_cases (some previous) command next with ⟨hcase, -⟩ | ⟨hcase, -⟩
    all_goals cases hcase.symm.trans hmerge
  have hopen := windows_trimMoves_open hstill
  rw [Rule.apply, Fresh]
  cases htrim : trimMoves (sweep closeAfterMove none commands) with
  | nil => trivial
  | cons command rest =>
    rw [htrim] at hopen
    exact fresh_mergeMoves hopen

lemma Fresh.windows {ok : Option Command → Command → Option Command → Prop} (h : Fresh commands)
    (hok : ∀ previous command next, (∀ b ∈ previous, b.kind = .move → command.isBreak = false) →
      ok previous command next) : Windows ok none commands := by
  suffices hall : ∀ {commands previous}, Windows (fun _ command next => command.kind = .move →
      ∃ d ∈ next, d.isBreak = false) previous commands →
      (∀ b ∈ previous, b.kind = .move → ∀ d ∈ commands.head?, d.isBreak = false) →
      Windows ok previous commands from hall h (by simp)
  intro commands
  induction commands with
  | nil => exact fun _ _ => trivial
  | cons command rest ih =>
    intro previous h hprevious
    refine ⟨hok _ _ _ fun b hb hk => hprevious b hb hk command rfl, ih h.2 ?_⟩
    rintro b hb hk d hd
    obtain rfl : command = b := Option.some.inj hb
    obtain ⟨e, he, hbreak⟩ := h.1 hk
    obtain rfl : e = d := Option.some.inj (he.symm.trans hd)
    exact hbreak

lemma Fresh.trimMoves (h : Fresh commands) : trimMoves commands = commands := by
  rw [Fresh] at h
  generalize (none : Option Command) = previous at h
  induction commands generalizing previous with
  | nil => rfl
  | cons command rest ih =>
    rw [trimMoves_cons, ih _ h.2, if_neg]
    rw [Bool.and_eq_true, beq_iff_eq, List.isEmpty_iff]
    rintro ⟨hk, rfl⟩
    obtain ⟨d, hd, -⟩ := h.1 hk
    cases hd

lemma cleanMoves_of_fresh (h : Fresh commands) : Rule.cleanMoves.apply commands = commands := by
  have hclose : Windows (Still closeAfterMove) none commands := by
    refine h.windows fun previous command next hopen => ?_
    rcases closeAfterMove_cases previous command next with ⟨hcase, -⟩ | ⟨-, hclose, b, hb, hk⟩
    · exact hcase
    · cases (hopen b hb hk).symm.trans (isBreak_of_close hclose)
  have hmerge : Windows (Still mergeMoves) none commands := by
    refine h.windows fun previous command next hopen => ?_
    obtain hcase | ⟨b, rfl, hmove, hk, -⟩ := mergeMoves_cases previous command next
    · exact hcase
    · cases (hopen b rfl hk).symm.trans (isBreak_of_move hmove)
  have hswept : sweep closeAfterMove none commands = commands := sweep_of_still hclose
  rw [Rule.apply, hswept, h.trimMoves]
  exact sweep_of_still hmerge

lemma Fresh.singleCloses (h : Fresh commands) : Fresh (singleCloses commands) := by
  rw [Fresh] at h ⊢
  generalize (none : Option Command) = previous at h ⊢
  induction commands generalizing previous with
  | nil => trivial
  | cons command rest ih =>
    rw [TersePath.singleCloses]
    split
    · exact ih _ (h.2.after fun _ _ => id)
    · refine ⟨fun hk => ?_, ih _ h.2⟩
      obtain ⟨d, hd, hbreak⟩ := h.1 hk
      obtain ⟨others, rfl⟩ := List.head?_eq_some_iff.mp hd
      refine ⟨d, ?_, hbreak⟩
      rw [TersePath.singleCloses, if_neg]
      · rfl
      · rw [Bool.and_eq_true, beq_iff_eq]
        rintro ⟨hclose, -⟩
        cases hbreak.symm.trans (isBreak_of_close hclose)

end Fresh

end TersePath
