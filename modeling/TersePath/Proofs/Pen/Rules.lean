import TersePath.Proofs.Path.Head
import TersePath.Proofs.Pen.Route
import TersePath.Proofs.Picture.Straight

/-! The rules and the pen. Each of them leaves the pen where it was, so a simplified path keeps the route
of the path, and its kept spellings still lead where its commands do. No product needs to be exact for
that, and the sums that are taken are differences of positions. -/

namespace TersePath

open Picture Binary64

lemma Binary64.integer_zero : zero.Integer := ⟨0, ⟨isFinite_zero, by simp⟩, by norm_num⟩

lemma Command.scaledOperands_eq {command : Command} (h : command.kind ≠ .arc) :
    command.scaledOperands = command.operands := by
  have hroles : ∀ operand ∈ command.withRoles, (operand.1 != .unscaled) = true := by
    intro operand hoperand
    obtain ⟨i, hi, rfl⟩ := List.mem_mapIdx.mp hoperand
    rw [Kind.role.eq_def]
    split <;> first | rfl | (next hk => exact absurd hk h)
  rw [scaledOperands, List.filter_eq_self.mpr hroles, withRoles]
  exact List.ext_getElem (by simp) (by simp)

lemma Command.integer_iff {command : Command} (h : command.kind ≠ .arc) :
    command.Integer ↔ ∀ x ∈ command.operands, x.Integer := by
  rw [Command.Integer, scaledOperands_eq h]

lemma integer_mk {letter : Letter} {operands : List Binary64} {closes : Bool}
    {text : Option (List Char)} (hkind : letter.kind ≠ .arc) (h : ∀ x ∈ operands, x.Integer) :
    Command.Integer ⟨letter, operands, closes, text⟩ := by
  have harc : Command.kind ⟨letter, operands, closes, text⟩ ≠ .arc := hkind
  rwa [Command.integer_iff harc]

namespace Picture

section Step

variable {place : Place} {previous next : Option Command} {command : Command}

lemma step_of_line {p : Point} (h : figure value place command = .line p) :
    place.step command = ⟨p, place.start⟩ := by
  rw [Place.step, h]
  rfl

lemma step_of_cubic {first : Option Point} {q p : Point}
    (h : figure value place command = .cubic first q p) : place.step command = ⟨p, place.start⟩ := by
  rw [Place.step, h]
  rfl

lemma step_of_move {p : Point} (h : figure value place command = .move p) :
    place.step command = ⟨p, p⟩ := by
  rw [Place.step, h]
  rfl

lemma step_of_close (h : command.kind = .close) : place.step command = ⟨place.start, place.start⟩ := by
  rw [Place.step, figure_of_close h]
  rfl

lemma step_of_asCubic {c : Cubic} (h : command.asCubic previous = some c) (place : Place) :
    (place.stepAll previous.toList).step command =
      ⟨(place.stepAll previous.toList).point + (c.x.value, c.y.value),
        (place.stepAll previous.toList).start⟩ := by
  obtain ⟨first, hfigure, -, -⟩ := figure_of_asCubic (fits_front ⟨place, .none⟩ fun _ => rfl) h
  have hhere := toPlace_afterAll ⟨place, .none⟩ previous.toList
  rw [← hhere]
  exact step_of_cubic hfigure

lemma not_arc_of_isCubic {kind : Kind} (h : kind.isCubic) : kind ≠ .arc ∧ kind ≠ .close := by
  cases kind <;> first | exact ⟨by decide, by decide⟩ | cases h

lemma integer_of_asCubic {c : Cubic} (h : command.Integer) (hc : command.asCubic previous = some c) :
    ∀ x ∈ c.operands, x.Integer := by
  rw [Command.integer_iff (not_arc_of_isCubic (kind_of_asCubic hc)).1] at h
  exact forall_of_asCubic _ integer_zero h hc

end Step

section Cubics

variable {good : Command → Prop} {spaced : Bool} {place : Place} {previous next : Option Command} {command : Command}

lemma steady_flat {c : Cubic} {kind : Kind} {operands : List Binary64}
    (h : Route good spaced place (previous.toList ++ [command])) (hc : command.asCubic previous = some c)
    (hkind : kind = .line ∨ kind = .horizontal ∨ kind = .vertical)
    (hlength : operands.length = kind.arity) (hoperands : ∀ x ∈ operands, x ∈ c.operands)
    (hstep : ∀ here : Place, here.step (command.reshape kind operands) =
      ⟨here.point + (c.x.value, c.y.value), here.start⟩) :
    Steady good spaced place previous command (.replace (command.reshape kind operands)) := by
  have hproper : command.Proper := h.proper command (by simp)
  have hfinite := finite_of_asCubic hproper hc
  refine steady_replace h (not_arc_of_isCubic (kind_of_asCubic hc)).2 ?_
    (proper_reshape hlength fun x hx => hfinite x (hoperands x hx))
    (fun hinteger => integer_mk ?_ fun x hx => integer_of_asCubic hinteger hc x (hoperands x hx)) ?_
  · rcases hkind with rfl | rfl | rfl <;> decide
  · rcases hkind with rfl | rfl | rfl <;> decide
  · rw [hstep, step_of_asCubic hc]

theorem steady_straightCubic : EditSteady Edit.straightCubic := by
  intro good spaced place previous command next _ h
  rw [Edit.straightCubic]
  split
  · exact steady_keep h
  · next c hc =>
    split
    · split
      · refine steady_flat h hc (Or.inl rfl) rfl (by simp [Cubic.operands]) fun here => ?_
        exact step_of_line (figure_line ⟨here, .none⟩ rfl rfl)
      · split
        · next hdrop =>
          simp only [Bool.and_eq_true] at hdrop
          refine steady_drop h ?_
          rw [step_of_asCubic hc, value_of_isZero hdrop.1.1, value_of_isZero hdrop.1.2, add_zero_point]
        · exact steady_keep h
    · exact steady_keep h

theorem steady_axisCubic : EditSteady Edit.axisCubic := by
  intro good spaced place previous command next _ h
  rw [Edit.axisCubic]
  split
  · exact steady_keep h
  · next c hc =>
    split
    · exact steady_keep h
    · dsimp only
      split
      · next hvertical =>
        simp only [List.all_cons, List.all_nil, Bool.and_true, Bool.and_eq_true] at hvertical
        refine steady_flat h hc (Or.inr (Or.inr rfl)) rfl (by simp [Cubic.operands]) fun here => ?_
        rw [value_of_isZero hvertical.1.2.2.2]
        exact step_of_line (figure_vertical ⟨here, .none⟩ rfl rfl)
      · split
        · next hhorizontal =>
          simp only [List.all_cons, List.all_nil, Bool.and_true, Bool.and_eq_true] at hhorizontal
          refine steady_flat h hc (Or.inr (Or.inl rfl)) rfl (by simp [Cubic.operands]) fun here => ?_
          rw [value_of_isZero hhorizontal.1.2.2.2]
          exact step_of_line (figure_horizontal ⟨here, .none⟩ rfl rfl)
        · exact steady_keep h

theorem steady_orphanSmooth : EditSteady Edit.orphanSmooth := by
  intro good spaced place previous command next _ h
  rw [Edit.orphanSmooth]
  split
  · next horphan =>
    rw [Command.isOrphanSmooth, Bool.and_eq_true] at horphan
    have hproper : command.Proper := h.proper command (by simp)
    obtain ⟨hops, hk, -⟩ := Command.exists_of_isRelative hproper horphan.1
    have hl := Command.isRelative_iff.mp horphan.1
    have hclose : command.kind ≠ .close ∧ command.kind ≠ .arc := by
      rw [hk]
      decide
    generalize ho : command.operands = operands at hops
    cases hops with
    | smoothCubic x2 y2 x y =>
      refine steady_replace h hclose.1 (by decide) (proper_reshape rfl ?_)
        (fun hinteger => integer_mk (by decide) ?_) ?_
      · rw [List.forall_mem_cons, List.forall_mem_cons, ← ho]
        exact ⟨rfl, rfl, hproper.2⟩
      · rw [Command.integer_iff hclose.2, ho] at hinteger
        rw [List.forall_mem_cons, List.forall_mem_cons]
        exact ⟨integer_zero, integer_zero, hinteger⟩
      · generalize place.stepAll previous.toList = here
        rw [step_of_cubic (figure_cubic ⟨here, .none⟩ rfl rfl),
          step_of_cubic (figure_smoothCubic ⟨here, .none⟩ hl ho)]
  · exact steady_keep h

theorem steady_contractSmooth : EditSteady Edit.contractSmooth := by
  intro good spaced place previous command next _ h
  rw [Edit.contractSmooth]
  split
  · next x1 y1 rest hrest =>
    split
    · next hcond =>
      simp only [Bool.and_eq_true] at hcond
      have hproper : command.Proper := h.proper command (by simp)
      obtain ⟨hops, hk, -⟩ := Command.exists_of_isRelative hproper hcond.1.1.1
      have hl := Command.isRelative_iff.mp hcond.1.1.1
      have hclose : command.kind ≠ .close ∧ command.kind ≠ .arc := by
        rw [hk]
        decide
      have hfinite := hproper.2
      rw [hrest] at hops hfinite
      cases hops with
      | cubic _ _ x2 y2 x y =>
        refine steady_replace h hclose.1 (by decide) (proper_reshape rfl ?_)
          (fun hinteger => integer_mk (by decide) ?_) ?_
        · exact fun v hv => hfinite v (List.mem_cons_of_mem _ (List.mem_cons_of_mem _ hv))
        · rw [Command.integer_iff hclose.2, hrest] at hinteger
          exact fun v hv => hinteger v (List.mem_cons_of_mem _ (List.mem_cons_of_mem _ hv))
        · generalize place.stepAll previous.toList = here
          rw [step_of_cubic (figure_smoothCubic ⟨here, .none⟩ rfl rfl),
            step_of_cubic (figure_cubic ⟨here, .none⟩ hl hrest)]
    · exact steady_keep h
  · exact steady_keep h

end Cubics

section Lines

variable {good : Command → Prop} {spaced : Bool} {place : Place} {previous next : Option Command} {command : Command}

theorem steady_lineToAxis : EditSteady Edit.lineToAxis := by
  intro good spaced place previous command next _ h
  rw [Edit.lineToAxis]
  split
  · next x y ho =>
    split
    · exact steady_keep h
    · next hrelative =>
      rw [Bool.not_eq_true', Bool.not_eq_false, Command.isRelative_iff] at hrelative
      have hproper : command.Proper := h.proper command (by simp)
      have hfinite := hproper.2
      have hkind : command.kind = .line := congrArg Letter.kind hrelative
      have hclose : command.kind ≠ .close ∧ command.kind ≠ .arc := by
        rw [hkind]
        decide
      have hinteger : command.Integer → x.Integer ∧ y.Integer := by
        intro hinteger
        rw [Command.integer_iff hclose.2, ho] at hinteger
        simpa using hinteger
      rw [ho] at hfinite
      have hline : ∀ here : Place, here.step command =
          ⟨here.point + (x.value, y.value), here.start⟩ := fun here =>
        step_of_line (figure_line ⟨here, .none⟩ hrelative ho)
      split
      · next hy =>
        refine steady_replace h hclose.1 (by decide) (proper_reshape rfl ?_)
          (fun hall => integer_mk (by decide) (by simpa using (hinteger hall).1)) ?_
        · simpa using hfinite x (by simp)
        · rw [hline, value_of_isZero hy]
          exact step_of_line (figure_horizontal ⟨_, .none⟩ rfl rfl)
      · split
        · next hx =>
          refine steady_replace h hclose.1 (by decide) (proper_reshape rfl ?_)
            (fun hall => integer_mk (by decide) (by simpa using (hinteger hall).2)) ?_
          · simpa using hfinite y (by simp)
          · rw [hline, value_of_isZero hx]
            exact step_of_line (figure_vertical ⟨_, .none⟩ rfl rfl)
        · exact steady_keep h
  · exact steady_keep h

lemma sum_onAxis {a b : Binary64} {p : ℚ} (ha : a.isFinite) (hb : b.isFinite) (hp : OnAxis p)
    (hend : OnAxis (p + a.value + b.value)) : (a + b).Is (a.value + b.value) ∧ (a + b).Integer := by
  obtain ⟨m, rfl, hm⟩ := hp
  obtain ⟨n, hn, hlt⟩ := hend
  have hsum : a.value + b.value = ((n - m : ℤ) : ℚ) := by
    push_cast
    linarith
  have hsmall : |n - m| < 2 ^ 53 := by
    rw [abs_lt] at hm hlt ⊢
    constructor <;> omega
  have his := add_is (is_value ha) (is_value hb) hsum (natAbs_le_of_abs hsmall.le)
  exact ⟨hsum ▸ his, n - m, his, hsmall⟩

lemma step_of_isZeroAxis (hproper : command.Proper) (h : Edit.isZeroAxis command) :
    place.step command = place :=
  step_of_line (figure_of_isZeroAxis ⟨place, .none⟩ hproper h)

theorem steady_mergeAxis : EditSteady Edit.mergeAxis := by
  intro good spaced place previous command next hgrid h
  have hproper : command.Proper := h.proper command (by simp)
  obtain hkeep | ⟨hdrop, hzero, -⟩ | ⟨before, a, b, rfl, hbefore, ho, haxis, hletter, -, hmerge⟩ :=
    mergeAxis_cases previous command next
  · rw [hkeep]
    exact steady_keep h
  · rw [hdrop]
    exact steady_drop h (step_of_isZeroAxis hproper hzero)
  · rw [hmerge]
    obtain ⟨u, hu, hfigure⟩ := figure_axis haxis
    have hstep : ∀ (here : Place) (other : Command) (x : Binary64), other.letter = command.letter →
        other.operands = [x] → here.step other = ⟨here.point + x.value • u, here.start⟩ :=
      fun here other x hl hx => step_of_line (hfigure ⟨here, .none⟩ other x hl hx)
    have hends : place.stepAll [before, command] =
        ⟨place.point + a.value • u + b.value • u, place.start⟩ := by
      rw [Place.stepAll_cons, Place.stepAll_cons, hstep _ before a hletter hbefore,
        hstep _ command b rfl ho, Place.stepAll_nil]
    have ha : a.isFinite := (h.proper before (by simp)).2 a (by simp [hbefore])
    have hb : b.isFinite := hproper.2 b (by simp [ho])
    have hend : OnGrid (place.stepAll [before, command]).point := (h.onGrid hgrid).1
    have hsum : (a + b).Is (a.value + b.value) ∧ (a + b).Integer := by
      rw [hends] at hend
      rcases hu with rfl | rfl
      · exact sum_onAxis ha hb hgrid.1.1 (by simpa using hend.1)
      · exact sum_onAxis ha hb hgrid.1.2 (by simpa using hend.2)
    refine steady_merge h ⟨rfl, rfl⟩ ⟨?_, by simpa using hsum.1.1⟩ (fun _ => ?_) ?_
    · have hlength := hproper.1
      rw [Command.WellFormed, ho] at hlength
      exact hlength
    · have harc : command.kind ≠ .arc := by
        rcases kind_of_isRelativeAxis haxis with hk | hk <;> rw [hk] <;> decide
      exact ⟨integer_mk harc (by simpa using hsum.2), fun habsolute => absurd
        (habsolute.symm.trans (absolute_of_isRelativeAxis haxis)) (by simp)⟩
    · have hother := hstep place { letter := command.letter, operands := [a + b] } (a + b) rfl rfl
      rw [hother, hsum.1.2, add_smul, ← add_assoc]
      exact hends.symm

theorem steady_zeroAxis : EditSteady Edit.zeroAxis := by
  intro good spaced place previous command next _ h
  rw [Edit.zeroAxis]
  split
  · next hdrop =>
    rw [Bool.and_eq_true] at hdrop
    exact steady_drop h (step_of_isZeroAxis (h.proper command (by simp)) hdrop.1)
  · exact steady_keep h

end Lines

section Moves

variable {good : Command → Prop} {spaced : Bool} {place : Place} {previous next : Option Command} {command : Command}

lemma step_move (command : Command) (place : Place) {x y : Binary64} (hk : command.kind = .move)
    (ho : command.operands = [x, y]) :
    place.step command = ⟨place.base command.absolute + (x.value, y.value),
      place.base command.absolute + (x.value, y.value)⟩ :=
  step_of_move (figure_move (⟨place, .none⟩ : Hand) hk ho)

theorem steady_closeAfterMove : EditSteady Edit.closeAfterMove := by
  intro good spaced place previous command next _ h
  rw [Edit.closeAfterMove]
  split
  · next hcond =>
    simp only [Bool.and_eq_true, beq_iff_eq, Option.any_eq_true] at hcond
    obtain ⟨hclose, before, rfl, hmove⟩ := hcond
    obtain ⟨x, y, ho⟩ := operands_of_move (h.proper before (by simp)) hmove
    refine steady_drop h ?_
    rw [step_of_close hclose, Option.toList_some, Place.stepAll_cons, Place.stepAll_nil,
      step_move _ place hmove ho]
  · exact steady_keep h

lemma base_onGrid (hgrid : place.OnGrid) (absolute : Bool) : OnGrid (place.base absolute) := by
  cases absolute with
  | true => exact ⟨onAxis_zero, onAxis_zero⟩
  | false => exact hgrid.1

theorem steady_mergeMoves : EditSteady Edit.mergeMoves := by
  intro good spaced place previous command next hgrid h
  obtain hkeep | ⟨before, rfl, hk, hkbefore, hmerge⟩ := mergeMoves_cases previous command next
  · rw [hkeep]
    exact steady_keep h
  have hproper : command.Proper := h.proper command (by simp)
  have hbefore : before.Proper := h.proper before (by simp)
  obtain ⟨x, y, ho⟩ := operands_of_move hproper hk
  obtain ⟨a, b, hobefore⟩ := operands_of_move hbefore hkbefore
  obtain ⟨habsolute, hmerge⟩ | ⟨hrelative, hmerge⟩ := hmerge
  · rw [hmerge]
    refine steady_merge h ⟨rfl, rfl⟩ hproper (fun hall => ?_) ?_
    · have hfit := hall command (by simp)
      exact ⟨hfit.integer, hfit.grid⟩
    rw [Option.toList_some, List.singleton_append, Place.stepAll_cons, Place.stepAll_cons,
      Place.stepAll_nil, step_move _ _ hk ho, habsolute, Place.base_absolute]
    have hother := step_move { letter := command.letter, operands := command.operands }
      place hk ho
    rw [hother]
    simp [Command.absolute, show command.letter.absolute = true from habsolute]
  · have hends : place.stepAll [before, command] =
        ⟨place.base before.absolute + (a.value, b.value) + (x.value, y.value),
          place.base before.absolute + (a.value, b.value) + (x.value, y.value)⟩ := by
      rw [Place.stepAll_cons, Place.stepAll_cons, Place.stepAll_nil, step_move _ _ hk ho, hrelative,
        Place.base_relative, step_move _ _ hkbefore hobefore]
    have hend : OnGrid (place.stepAll [before, command]).point := (h.onGrid hgrid).1
    rw [hends] at hend
    have hfinite := hproper.2
    have hfirst := hbefore.2
    rw [ho] at hfinite
    rw [hobefore] at hfirst
    obtain ⟨hx, hxinteger⟩ := sum_onAxis (hfirst a (by simp)) (hfinite x (by simp))
      (base_onGrid hgrid before.absolute).1 hend.1
    obtain ⟨hy, hyinteger⟩ := sum_onAxis (hfirst b (by simp)) (hfinite y (by simp))
      (base_onGrid hgrid before.absolute).2 hend.2
    rw [hmerge, hobefore, ho, List.zipWith_cons_cons, List.zipWith_cons_cons, List.zipWith_nil_left]
    have hother := step_move { letter := before.letter, operands := [a + x, b + y] }
      place hkbefore rfl
    refine steady_merge h ⟨rfl, rfl⟩ ⟨?_, by simpa using ⟨hx.1, hy.1⟩⟩ (fun _ => ?_) ?_
    · exact (congrArg Kind.arity hkbefore).symm
    · have harc : before.kind ≠ .arc := by
        rw [hkbefore]
        decide
      refine ⟨integer_mk harc (by simpa using ⟨hxinteger, hyinteger⟩), fun habsolute => ?_⟩
      rw [show before.absolute = true from habsolute, Place.base_absolute, zero_add] at hend
      have hscaled : Command.scaledOperands { letter := before.letter, operands := [a + x, b + y] } =
          [a + x, b + y] := Command.scaledOperands_eq harc
      rw [Command.OnGrid, hscaled, List.forall_mem_cons, List.forall_mem_singleton, hx.2, hy.2]
      exact hend
    · have hsum : ∀ p : Point, p + (a.value + x.value, b.value + y.value) =
          p + (a.value, b.value) + (x.value, y.value) := by
        intro p
        ext <;> simp [add_assoc]
      rw [hother, hx.2, hy.2, hsum]
      exact hends.symm

lemma route_trimMoves {commands : List Command} (h : Route good spaced place commands) :
    Route good spaced place (trimMoves commands) ∧ ∀ c ∈ trimMoves commands, c ∈ commands := by
  induction commands generalizing place with
  | nil => exact ⟨trivial, fun c hc => hc⟩
  | cons command rest ih =>
    obtain ⟨hroute, hmem⟩ := ih h.2
    rw [trimMoves_cons]
    split
    · exact ⟨trivial, by simp⟩
    · refine ⟨⟨h.1, hroute⟩, fun c hc => ?_⟩
      rcases List.mem_cons.mp hc with rfl | hc
      · exact List.mem_cons_self
      · exact List.mem_cons_of_mem _ (hmem c hc)

end Moves

lemma route_apply (rule : Rule) {spaced : Bool} {place : Place} {commands : List Command}
    (hgrid : place.OnGrid) (h : Route good spaced place commands) :
    Route good spaced place (rule.apply commands) ∧
      ((∀ c ∈ commands, c.Tidy) → ∀ c ∈ rule.apply commands, c.Tidy) := by
  cases rule with
  | straightCubics => exact route_sweep steady_straightCubic none hgrid h
  | axisCubics => exact route_sweep steady_axisCubic none hgrid h
  | orphanSmooth => exact route_sweep steady_orphanSmooth none hgrid h
  | contractSmooth => exact route_sweep steady_contractSmooth none hgrid h
  | linesToAxis => exact route_sweep steady_lineToAxis none hgrid h
  | mergeAxisRuns => exact route_sweep steady_mergeAxis none hgrid h
  | dropZeroAxis => exact route_sweep steady_zeroAxis none hgrid h
  | cleanMoves =>
    obtain ⟨hclose, hcloseTidy⟩ := route_sweep steady_closeAfterMove none hgrid h
    obtain ⟨htrim, hmem⟩ := route_trimMoves hclose
    obtain ⟨hmerge, hmergeTidy⟩ := route_sweep steady_mergeMoves none hgrid htrim
    exact ⟨hmerge, fun hall => hmergeTidy fun c hc => hcloseTidy hall c (hmem c hc)⟩

/-- A simplified path takes the route of the path. -/
theorem route_simplify {spaced : Bool} {place : Place} {commands : List Command}
    (hgrid : place.OnGrid) (h : Route good spaced place commands) :
    Route good spaced place (simplify commands) ∧
      ((∀ c ∈ commands, c.Tidy) → ∀ c ∈ simplify commands, c.Tidy) := by
  rw [simplify]
  generalize Rule.all = rules
  induction rules generalizing commands with
  | nil => exact ⟨h, fun hall => hall⟩
  | cons rule rest ih =>
    obtain ⟨hroute, htidy⟩ := route_apply rule hgrid h
    obtain ⟨hrest, hrestTidy⟩ := ih hroute
    exact ⟨hrest, fun hall => hrestTidy (htidy hall)⟩

end Picture

end TersePath
