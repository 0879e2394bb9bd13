import TersePath.Path.Guarded
import TersePath.Proofs.Path.Arity

/-! Operands are where they are looked for. In a path whose commands have as many operands as their kinds
take, every step that takes operands by their places has an answer, and it is the one of the step that
takes them by their kind. -/

namespace TersePath

namespace Guarded

section Scaling

variable {command after : Command} {scale : ℤ} {pen : Pen}

lemma mapM_scaledPlaces (h : command.WellFormed) :
    ((scaledPlaces command).mapM fun place => command.operands[place]?) = some command.scaledOperands := by
  obtain ⟨⟨kind, absolute⟩, operands, closes, text⟩ := command
  cases h.operands <;> rfl

lemma replaceAt_scaledPlaces (h : command.WellFormed) {f : ℕ → Binary64 → Binary64}
    {g : Role → Binary64 → Binary64}
    (hf : ∀ i x, command.kind.role i ≠ .unscaled → f i x = g (command.kind.role i) x)
    (hg : ∀ x, g .unscaled x = x) :
    replaceAt f (scaledPlaces command) command.operands = some (command.mapOperands g).operands := by
  obtain ⟨⟨kind, absolute⟩, operands, closes, text⟩ := command
  dsimp only [Command.kind] at hf
  cases h.operands with
  | horizontal x => exact congrArg (fun a => some [a]) (hf 0 x (by decide))
  | vertical y => exact congrArg (fun a => some [a]) (hf 0 y (by decide))
  | arc rx ry rotation large sweep x y =>
    simp [replaceAt, scaledPlaces, Command.kind, Kind.role, Command.mapOperands, hf, hg]
  | _ =>
    simp [replaceAt, scaledPlaces, Command.kind, Kind.role, Command.mapOperands, List.range,
      List.range.loop, hf]

lemma exists_endPlace (h : command.WellFormed) (hclose : command.kind ≠ .close) (axis : Axis) :
    ∃ place, endPlace command axis = some place ∧
      (∀ i ∈ place, i ∈ scaledPlaces command ∧ i < command.operands.length) ∧
      ∀ other : Command, other.letter = command.letter →
        other.operands.length = command.operands.length →
        other.finish? axis = place.bind fun i => other.operands[i]? := by
  obtain ⟨⟨kind, absolute⟩, operands, closes, text⟩ := command
  cases axis with
  | x =>
    cases h.operands
    case close => exact absurd rfl hclose
    all_goals
      refine ⟨_, rfl, by simp [scaledPlaces, Command.kind], ?_⟩
      rintro ⟨letter, others, flag, kept⟩ rfl hlength
      simp_all [Command.finish?, Command.kind, List.head?_eq_getElem?]
  | y =>
    cases h.operands
    case close => exact absurd rfl hclose
    all_goals
      refine ⟨_, rfl, by simp [scaledPlaces, Command.kind], ?_⟩
      rintro ⟨letter, others, flag, kept⟩ rfl hlength
      simp_all [Command.finish?, Command.kind, List.head?_eq_getElem?]

lemma follow_eq (h : command.WellFormed) (hclose : command.kind ≠ .close)
    (hletter : after.letter = command.letter)
    (hlength : after.operands.length = command.operands.length) (axis : Axis) :
    follow pen scale command after axis = some (pen.follow scale command after axis) := by
  obtain ⟨place, hplace, hscaled, hfinish⟩ := exists_endPlace h hclose axis
  rw [follow, Pen.follow, hplace, hfinish command rfl rfl, hfinish after hletter hlength]
  cases place with
  | none => rfl
  | some i =>
    obtain ⟨hmem, hi⟩ := hscaled i rfl
    have hbefore : command.operands[i]? = some command.operands[i] := List.getElem?_eq_getElem hi
    obtain ⟨result, hafter⟩ : ∃ result, after.operands[i]? = some result :=
      ⟨_, List.getElem?_eq_getElem (hlength ▸ hi)⟩
    simp only [Option.bind_some, hbefore, hafter, Option.bind_eq_bind, not_not.mpr hmem, if_false]
    cases result.truncate? with
    | none => rfl
    | some n =>
      dsimp only
      split <;> rfl

lemma length_mapOperands (f : Role → Binary64 → Binary64) (command : Command) :
    (command.mapOperands f).operands.length = command.operands.length :=
  List.length_mapIdx ..

def roundRole (scale : ℤ) (role : Role) (x : Binary64) : Binary64 :=
  if role = .unscaled then x else x.roundScaled scale

theorem scaleCommand_eq (h : command.WellFormed) :
    scaleCommand scale pen command = some (TersePath.scaleCommand scale pen command) := by
  rw [scaleCommand, TersePath.scaleCommand]
  by_cases hclose : command.kind = .close
  · rw [if_pos hclose, if_pos hclose]
    rfl
  rw [if_neg hclose, if_neg hclose]
  dsimp only
  rw [mapM_scaledPlaces h, Option.bind_eq_bind, Option.bind_some]
  by_cases hfinite : command.scaledOperands.all Binary64.isFinite = true
  · rw [if_pos hfinite, if_pos hfinite, replaceAt_scaledPlaces h (fun _ _ _ => rfl) fun _ => rfl,
      Option.bind_eq_bind, Option.bind_some]
    generalize hscaled : command.mapOperands (scaleOperand scale pen command.absolute) = scaled
    have hletter : scaled.letter = command.letter := by
      rw [← hscaled]
      rfl
    have hlength : scaled.operands.length = command.operands.length := by
      rw [← hscaled]
      exact length_mapOperands _ command
    have hsame : ({ command with operands := scaled.operands } : Command) = scaled := by
      rw [← hscaled]
      rfl
    simp only [hsame, follow_eq h hclose hletter hlength, Option.bind_some]
    cases pen.follow scale command scaled .x with
    | error fault =>
      by_cases hmove : command.kind = .move
      · rw [if_pos hmove]
        rfl
      · rw [if_neg hmove]
        rfl
    | ok across => rfl
  · have hround : ∀ i x, command.kind.role i ≠ .unscaled →
        x.roundScaled scale = roundRole scale (command.kind.role i) x :=
      fun i x hrole => (if_neg hrole).symm
    rw [if_neg hfinite, if_neg hfinite, replaceAt_scaledPlaces h hround fun _ => if_pos rfl]
    rfl

theorem scaleFrom_eq {commands : List Command} (h : ∀ c ∈ commands, c.WellFormed) :
    scaleFrom scale pen commands = some (TersePath.scaleFrom scale pen commands) := by
  induction commands generalizing pen with
  | nil => rfl
  | cons command rest ih =>
    obtain ⟨hcommand, hrest⟩ := List.forall_mem_cons.mp h
    rw [scaleFrom, TersePath.scaleFrom, scaleCommand_eq hcommand, Option.bind_eq_bind, Option.bind_some]
    rcases TersePath.scaleCommand scale pen command with ⟨scaled, fault | moved⟩
    · rfl
    · dsimp only
      rw [ih hrest]
      rfl

theorem neededPlaces_eq {commands : List Command} (h : ∀ c ∈ commands, c.WellFormed) (budget : ℕ) :
    neededPlaces budget commands 0 = some (TersePath.neededPlaces commands budget) := by
  rw [TersePath.neededPlaces]
  generalize 0 = places
  induction commands generalizing places with
  | nil => rfl
  | cons command rest ih =>
    obtain ⟨hcommand, hrest⟩ := List.forall_mem_cons.mp h
    rw [neededPlaces, mapM_scaledPlaces hcommand, Option.bind_eq_bind, Option.bind_some]
    exact ih hrest _

end Scaling

section Relative

variable {command : Command} {cursor : Cursor}

lemma finish_eq (h : command.WellFormed) : finish command = some command.finish := by
  obtain ⟨⟨kind, absolute⟩, operands, closes, text⟩ := command
  cases h.operands <;> simp [finish, Command.finish, Command.kind, fromEnd?]

lemma moveTo_eq (h : command.WellFormed) : moveTo cursor command = some (cursor.moveTo command) := by
  rw [moveTo, Cursor.moveTo, finish_eq h]
  obtain ⟨⟨kind, absolute⟩, operands, closes, text⟩ := command
  cases absolute <;> cases h.operands <;> rfl

lemma advance_eq (h : command.WellFormed) : advance cursor command = some (cursor.advance command) := by
  rw [advance, Cursor.advance, moveTo_eq h]
  cases command.kind <;> rfl

lemma relativeTo_eq (h : command.WellFormed) :
    relativeTo cursor command = some (command.relativeTo cursor) := by
  obtain ⟨⟨kind, absolute⟩, operands, closes, text⟩ := command
  cases h.operands <;>
    simp [relativeTo, subtractAt, subtractPairs, Command.relativeTo, Command.mapOperands, Command.kind,
      Kind.role, Cursor.get]

theorem relativeFrom_eq {spaced : Bool} {commands : List Command} (h : ∀ c ∈ commands, c.WellFormed) :
    relativeFrom spaced cursor commands = some (TersePath.relativeFrom spaced cursor commands) := by
  induction commands generalizing cursor with
  | nil => rfl
  | cons command rest ih =>
    obtain ⟨hcommand, hrest⟩ := List.forall_mem_cons.mp h
    have hkept : (command.keepText spaced).WellFormed := hcommand
    rw [relativeFrom, TersePath.relativeFrom]
    by_cases hclose : command.kind = .close
    · simp only [if_pos hclose, Option.bind_eq_bind, Option.bind_some, advance_eq hcommand, ih hrest]
      rfl
    · simp only [if_neg hclose, relativeTo_eq hkept]
      cases habsolute : command.absolute with
      | false =>
        simp only [Bool.false_eq_true, if_false, Option.bind_eq_bind, Option.bind_some,
          advance_eq hkept, ih hrest]
        rfl
      | true =>
        have hmoved : ((command.keepText spaced).relativeTo cursor).WellFormed :=
          (replays_relativeTo spaced cursor command).length.trans hcommand
        simp only [if_true, Option.bind_eq_bind, Option.bind_some, advance_eq hmoved, ih hrest]
        rfl

theorem toRelative_eq {spaced : Bool} {commands : List Command} (h : ∀ c ∈ commands, c.WellFormed) :
    toRelative spaced commands = some (TersePath.toRelative spaced commands) := by
  cases commands with
  | nil => rfl
  | cons command rest =>
    obtain ⟨hcommand, hrest⟩ := List.forall_mem_cons.mp h
    have hfirst : (if command.kind = .close then command else command.keepText spaced).WellFormed := by
      split
      · exact hcommand
      · exact hcommand
    rw [toRelative, TersePath.toRelative]
    simp only [advance_eq hfirst, relativeFrom_eq hrest, Option.bind_eq_bind, Option.bind_some]
    rfl

end Relative

section Rules

variable {previous next : Option Command} {command : Command}

lemma reflectsPen_eq (h : ∀ p ∈ previous, p.WellFormed) (follower : Kind) :
    reflectsPen previous follower = some (TersePath.reflectsPen previous follower) := by
  cases previous with
  | none => rfl
  | some command =>
    have hoperands := (h command rfl).operands
    obtain ⟨⟨kind, absolute⟩, operands, closes, text⟩ := command
    cases follower with
    | smoothCubic => cases hoperands <;> rfl
    | smoothQuadratic => cases hoperands <;> rfl
    | _ => rfl

lemma leavesFollower_eq (h : ∀ p ∈ previous, p.WellFormed) :
    leavesFollower previous next = some ((Command.follower? next).all (TersePath.reflectsPen previous)) := by
  rw [leavesFollower]
  cases Command.follower? next with
  | none => rfl
  | some follower => exact reflectsPen_eq h follower

lemma canDrop_eq (hprevious : ∀ p ∈ previous, p.WellFormed) (h : command.WellFormed) :
    canDrop previous command next = some (TersePath.canDrop previous command next) := by
  have hcommand : ∀ p ∈ some command, p.WellFormed := by simpa using h
  rw [canDrop, leavesFollower_eq hcommand, leavesFollower_eq hprevious, TersePath.canDrop]
  cases Command.follower? next <;> rfl

lemma canFlatten_eq (h : command.WellFormed) :
    leavesFollower (some command) next = some (TersePath.canFlatten command next) :=
  leavesFollower_eq (by simpa using h)

lemma cubicOperands?_eq (h : command.WellFormed) :
    cubicOperands? previous command = (command.asCubic previous).map Cubic.operands := by
  rw [cubicOperands?, Command.asCubic]
  split
  · next hcubic =>
    rw [Command.WellFormed, kind_of_isRelative hcubic] at h
    obtain ⟨x1, y1, x2, y2, x, y, ho⟩ := exists_of_length_six h
    rw [ho]
    rfl
  · split
    · next horphan =>
      rw [Command.WellFormed, kind_of_isOrphanSmooth horphan] at h
      obtain ⟨x2, y2, x, y, ho⟩ := exists_of_length_four h
      rw [ho]
      rfl
    · rfl

lemma straightCubic_eq (hprevious : ∀ p ∈ previous, p.WellFormed) (h : command.WellFormed) :
    straightCubic previous command next = some (Edit.straightCubic previous command next) := by
  rw [straightCubic, Edit.straightCubic, cubicOperands?_eq h]
  cases command.asCubic previous with
  | none => rfl
  | some c =>
    simp only [Option.map_some, Cubic.operands, canFlatten_eq h, canDrop_eq hprevious h,
      List.getElem?_cons_zero, List.getElem?_cons_succ, Option.bind_eq_bind, Option.bind_some]
    simp only [List.drop, List.take, Option.pure_def, apply_ite some]

lemma axisCubic_eq (h : command.WellFormed) :
    axisCubic previous command next = some (Edit.axisCubic previous command next) := by
  rw [axisCubic, Edit.axisCubic, cubicOperands?_eq h]
  cases command.asCubic previous with
  | none => rfl
  | some c =>
    simp only [Option.map_some, Cubic.operands, canFlatten_eq h, List.getElem?_cons_zero,
      List.getElem?_cons_succ, Option.bind_eq_bind, Option.bind_some]
    simp only [Option.pure_def, apply_ite some]

lemma contractSmooth_eq (h : command.WellFormed) :
    contractSmooth previous command next = some (Edit.contractSmooth previous command next) := by
  rw [contractSmooth, Edit.contractSmooth]
  by_cases hcubic : command.isRelative .cubic = true
  · rw [Command.WellFormed, kind_of_isRelative hcubic] at h
    obtain ⟨x1, y1, x2, y2, x, y, ho⟩ := exists_of_length_six h
    simp only [ho, hcubic, if_true, Bool.true_and, List.getElem?_cons_zero, List.getElem?_cons_succ,
      Option.bind_eq_bind, Option.bind_some, List.drop, Option.pure_def, apply_ite some]
  · rw [if_neg hcubic, Bool.eq_false_iff.mpr hcubic]
    split <;> rfl

lemma lineToAxis_eq (h : command.WellFormed) :
    lineToAxis previous command next = some (Edit.lineToAxis previous command next) := by
  rw [lineToAxis, Edit.lineToAxis]
  cases hline : command.isRelative .line with
  | false =>
    refine congrArg some (Eq.symm ?_)
    split <;> rfl
  | true =>
    rw [Command.WellFormed, kind_of_isRelative hline] at h
    obtain ⟨x, y, ho⟩ := exists_of_length_two h
    simp only [ho, Bool.not_true, Bool.false_eq_true, if_false, apply_ite some]

lemma exists_of_axis (haxis : Edit.isRelativeAxis command = true) (h : command.WellFormed) :
    ∃ x, command.operands = [x] := by
  refine exists_of_length_one ?_
  rcases kind_of_isRelativeAxis haxis with hk | hk
  · exact h.trans (congrArg Kind.arity hk)
  · exact h.trans (congrArg Kind.arity hk)

lemma isZeroAxis_eq (h : command.WellFormed) : isZeroAxis command = some (Edit.isZeroAxis command) := by
  rw [isZeroAxis, Edit.isZeroAxis]
  cases haxis : Edit.isRelativeAxis command with
  | false => rfl
  | true =>
    obtain ⟨x, ho⟩ := exists_of_axis haxis h
    rw [ho]
    rfl

lemma mergeAxis_eq (hprevious : ∀ p ∈ previous, p.WellFormed) (h : command.WellFormed) :
    mergeAxis previous command next = some (Edit.mergeAxis previous command next) := by
  simp only [mergeAxis, Edit.mergeAxis, isZeroAxis_eq h, leavesFollower_eq hprevious,
    Option.bind_eq_bind, Option.bind_some, Option.pure_def]
  split
  · rfl
  · cases previous with
    | none => rfl
    | some before =>
      dsimp only
      cases hjoin : Edit.isRelativeAxis command && before.letter == command.letter with
      | false =>
        refine congrArg some (Eq.symm ?_)
        split <;> rfl
      | true =>
        obtain ⟨haxis, hletter⟩ := Bool.and_eq_true_iff.mp hjoin
        obtain ⟨b, hb⟩ := exists_of_axis haxis h
        have hbefore : before.operands.length = command.kind.arity :=
          (hprevious before rfl).trans (congrArg (fun l => l.kind.arity) (beq_iff_eq.mp hletter))
        obtain ⟨a, ha⟩ := exists_of_length_one (hbefore.trans (h.symm.trans (congrArg List.length hb)))
        simp only [ha, hb, if_true, List.getElem?_cons_zero, Option.bind_some, apply_ite some,
          Bool.true_and]

lemma zeroAxis_eq (hprevious : ∀ p ∈ previous, p.WellFormed) (h : command.WellFormed) :
    zeroAxis previous command next = some (Edit.zeroAxis previous command next) := by
  rw [zeroAxis, Edit.zeroAxis, isZeroAxis_eq h, canDrop_eq hprevious h]
  simp only [Option.bind_eq_bind, Option.bind_some, Option.pure_def, apply_ite some]

lemma mergeMoves_eq (hprevious : ∀ p ∈ previous, p.WellFormed) (h : command.WellFormed) :
    mergeMoves previous command next = some (Edit.mergeMoves previous command next) := by
  rw [mergeMoves.eq_def, Edit.mergeMoves.eq_def]
  cases previous with
  | none => rfl
  | some before =>
    dsimp only
    cases hboth : command.kind == .move && before.kind == .move with
    | false => rfl
    | true =>
      obtain ⟨hcommand, hbefore⟩ := Bool.and_eq_true_iff.mp hboth
      have hfirst : before.WellFormed := hprevious before rfl
      rw [Command.WellFormed, beq_iff_eq.mp hcommand] at h
      rw [Command.WellFormed, beq_iff_eq.mp hbefore] at hfirst
      obtain ⟨x, y, ho⟩ := exists_of_length_two h
      obtain ⟨a, b, hab⟩ := exists_of_length_two hfirst
      cases command.absolute with
      | false =>
        rw [ho, hab]
        rfl
      | true => rfl

lemma sweep_eq {edit : Option Command → Command → Option Command → Edit}
    {guarded : Option Command → Command → Option Command → Option Edit} (hlawful : Lawful edit)
    (heq : ∀ {previous command next}, (∀ p ∈ previous, p.WellFormed) → command.WellFormed →
      guarded previous command next = some (edit previous command next))
    {commands : List Command} (hprevious : ∀ p ∈ previous, p.WellFormed)
    (h : ∀ c ∈ commands, c.WellFormed) :
    sweep guarded previous commands = some (TersePath.sweep edit previous commands) := by
  induction commands generalizing previous with
  | nil => rfl
  | cons command rest ih =>
    obtain ⟨hcommand, hrest⟩ := List.forall_mem_cons.mp h
    rw [sweep, TersePath.sweep, heq hprevious hcommand]
    dsimp only [Option.bind_eq_bind, Option.bind_some]
    cases hcase : edit previous command rest.head? with
    | keep =>
      have hkept : ∀ p ∈ some command, p.WellFormed := by simpa using hcommand
      dsimp only
      rw [ih hkept hrest]
      rfl
    | replace other =>
      have hother : ∀ p ∈ some other, p.WellFormed := by
        simpa using maintained_wellFormed.replaces _ _ _ (hlawful.replaces _ _ _ _ hcase) hcommand
      dsimp only
      rw [ih hother hrest]
      rfl
    | drop => exact ih hprevious hrest
    | merge other =>
      obtain ⟨before, rfl, hjoins⟩ := hlawful.joins _ _ _ _ hcase
      have hother : ∀ p ∈ some other, p.WellFormed := by
        simpa using maintained_wellFormed.joins _ _ _ hjoins (hprevious before rfl) hcommand
      exact ih hother hrest

lemma apply_eq (rule : Rule) {commands : List Command} (h : ∀ c ∈ commands, c.WellFormed) :
    apply rule commands = some (rule.apply commands) := by
  have hnone : ∀ p ∈ (none : Option Command), p.WellFormed := by simp
  cases rule with
  | straightCubics => exact sweep_eq .straightCubic straightCubic_eq hnone h
  | axisCubics => exact sweep_eq .axisCubic (fun _ => axisCubic_eq) hnone h
  | orphanSmooth => rfl
  | contractSmooth => exact sweep_eq .contractSmooth (fun _ => contractSmooth_eq) hnone h
  | linesToAxis => exact sweep_eq .lineToAxis (fun _ => lineToAxis_eq) hnone h
  | mergeAxisRuns => exact sweep_eq .mergeAxis mergeAxis_eq hnone h
  | dropZeroAxis => exact sweep_eq .zeroAxis zeroAxis_eq hnone h
  | cleanMoves =>
    refine sweep_eq .mergeMoves mergeMoves_eq hnone fun c hc => ?_
    exact maintained_wellFormed.forall_sweep .closeAfterMove hnone h c (mem_of_mem_trimMoves hc)

theorem simplify_eq {commands : List Command} (h : ∀ c ∈ commands, c.WellFormed) :
    simplify commands = some (TersePath.simplify commands) := by
  rw [simplify, TersePath.simplify]
  generalize Rule.all = rules
  induction rules generalizing commands with
  | nil => rfl
  | cons rule rest ih =>
    rw [List.foldlM_cons, apply_eq rule h]
    exact ih (maintained_wellFormed.forall_apply rule h)

lemma chosenText_ne_nil (config : Config) (h : command.absoluteText ≠ some []) :
    chosenText config command ≠ [] := by
  rw [chosenText]
  split
  · exact List.cons_ne_nil _ _
  · next other hother =>
    split
    · rintro rfl
      exact h hother
    · exact List.cons_ne_nil _ _

theorem serializeChecked_eq (config : Config) {commands : List Command}
    (h : ∀ c ∈ commands, c.absoluteText ≠ some []) :
    serializeChecked config commands = .ok (serialize config commands) := by
  refine if_neg fun hany => ?_
  obtain ⟨marked, hmarked, hempty⟩ := List.any_eq_true.mp hany
  obtain ⟨command, hcommand, hreplays⟩ :=
    exists_of_forall₂ (replays_markClosed commands) marked (List.mem_filter.mp hmarked).1
  exact chosenText_ne_nil config (hreplays.spelled (h command hcommand)) (List.isEmpty_iff.mp hempty)

end Rules

end Guarded

end TersePath
