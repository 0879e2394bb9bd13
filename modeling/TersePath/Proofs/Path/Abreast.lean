import TersePath.Proofs.Path.Variant

/-! The rules on a path that stands for a finished one. Command by command they bring it closer to the
path that it stands for; they drop nothing and merge nothing, since the finished path gives them nothing
to drop or to merge. -/

namespace TersePath

open Binary64 Edit

/-- Two paths side by side; what a command may be depends on the one before it in the first path. -/
inductive Abreast (stands : Option Command → Command → Command → Prop) :
    Option Command → List Command → List Command → Prop
  | nil (previous : Option Command) : Abreast stands previous [] []
  | cons {previous : Option Command} {command other : Command} {commands others : List Command}
      (head : stands previous command other) (tail : Abreast stands (some command) commands others) :
      Abreast stands previous (command :: commands) (other :: others)

lemma Abreast.head {stands : Option Command → Command → Command → Prop} {previous : Option Command}
    {commands others : List Command} (h : Abreast stands previous commands others) :
    Option.Rel (stands previous) commands.head? others.head? := by
  cases h with
  | nil => exact .none
  | cons head _ => exact .some head

lemma Abreast.imp {stands stands' : Option Command → Command → Command → Prop} {previous : Option Command}
    {commands others : List Command} (h : Abreast stands previous commands others)
    (himp : ∀ previous command other, stands previous command other → stands' previous command other) :
    Abreast stands' previous commands others := by
  induction h with
  | nil previous => exact .nil previous
  | cons head _ ih => exact .cons (himp _ _ _ head) ih

/-- The commands before two commands, of which one may stand for the other. -/
def Behind (early slopes : Prop) : Option Command → Option Command → Prop :=
  Option.Rel fun command other => ∃ before, Variant early slopes before command other

/-- A command and what stands for it, each between its neighbours. -/
structure Facing (early slopes : Prop) (previous : Option Command) (command : Command)
    (next previous' : Option Command) (other : Command) (next' : Option Command) : Prop where
  spent : Spent previous command next
  behind : Behind early slopes previous previous'
  here : Variant early slopes previous command other
  ahead : Option.Rel (Variant early slopes (some command)) next next'

/-- What an edit makes of a command that stands for another one. -/
def Leads (early slopes : Prop) (previous : Option Command) (command other : Command) (edit : Edit) :
    Prop :=
  edit = .keep ∧ Variant early slopes previous command other ∨
    ∃ third, edit = .replace third ∧ Variant early slopes previous command third

section Facing

variable {early slopes : Prop} {previous next previous' next' : Option Command} {command other : Command}

namespace Behind

lemma pens (h : Behind early slopes previous previous') {follower : Kind}
    (hpen : reflectsPen previous' follower) : reflectsPen previous follower := by
  cases h with
  | none => rfl
  | some h =>
    obtain ⟨before, h⟩ := h
    exact h.pens hpen

lemma line (h : Behind early slopes previous previous') (hline : previous.any isRelativeLine = false) :
    previous'.any isRelativeLine = false := by
  cases h with
  | none => rfl
  | some h =>
    obtain ⟨before, h⟩ := h
    rw [Option.any_some, Bool.eq_false_iff] at hline ⊢
    exact fun hother => hline (h.line hother)

lemma plain (h : Behind early slopes previous previous')
    (hplain : ∃ b ∈ previous', b.kind.isCubic = false) : ∃ b ∈ previous, b.kind.isCubic = false := by
  obtain ⟨b, hb, hplain⟩ := hplain
  cases h with
  | none => cases hb
  | some h =>
    obtain ⟨before, h⟩ := h
    obtain rfl := Option.some.inj hb
    exact ⟨_, rfl, h.plain hplain⟩

lemma plain_of_plain (h : Behind early slopes previous previous')
    (hplain : ∃ b ∈ previous, b.kind.isCubic = false ∧ isRelativeLine b = false) :
    ∃ b ∈ previous', b.kind.isCubic = false := by
  obtain ⟨b, hb, hplain, hline⟩ := hplain
  cases h with
  | none => cases hb
  | some h =>
    obtain ⟨before, h⟩ := h
    obtain rfl := Option.some.inj hb
    exact ⟨_, rfl, h.plain_of_plain hplain hline⟩

end Behind

namespace Facing

lemma canFlatten (h : Facing early slopes previous command next previous' other next')
    (hflat : TersePath.canFlatten other next') : TersePath.canFlatten command next := by
  rw [TersePath.canFlatten] at hflat ⊢
  have hahead := h.ahead
  rw [Option.all_eq_true]
  intro follower hfollower
  cases hahead with
  | none => cases hfollower
  | some hnext =>
    rcases hnext.follower hfollower with hsame | ⟨rfl, hpen, -⟩
    · rw [hsame] at hflat
      exact h.here.pens hflat
    · exact hpen

lemma canDrop (h : Facing early slopes previous command next previous' other next')
    (hdrop : TersePath.canDrop previous' other next') {c : Cubic} (hc : command.curve? = some c)
    (hstill : c.still) (hbent : ¬(c.straight ∧ TersePath.canFlatten command next)) :
    TersePath.canDrop previous command next := by
  have hflat := h.canFlatten (canFlatten_of_canDrop hdrop)
  rw [TersePath.canDrop, Option.all_eq_true]
  intro follower hfollower
  have hown : reflectsPen (some command) follower := by
    rw [TersePath.canFlatten, hfollower] at hflat
    exact hflat
  refine Bool.and_eq_true_iff.mpr ⟨hown, ?_⟩
  have hahead := h.ahead
  cases hahead with
  | none => cases hfollower
  | some hnext =>
    rcases hnext.follower hfollower with hsame | ⟨rfl, -⟩
    · rw [TersePath.canDrop, hsame] at hdrop
      exact h.behind.pens (Bool.and_eq_true_iff.mp hdrop).2
    · refine absurd ⟨straight_of_still hc hstill ?_, hflat⟩ hbent
      rwa [reflectsPen_of_isCubic (isCubic_of_curve hc)] at hown

lemma curves (h : Facing early slopes previous command next previous' other next') {d : Cubic}
    (hd : other.asCubic previous' = some d) :
    (∃ c, command.curve? = some c ∧ c.Twins d ∧ command.Free previous) ∨
      ¬(d.x.isZero ∧ d.y.isZero) ∧ Akin command (other.reshape .line [d.x, d.y]).flat := by
  obtain ⟨hcurve, hopen⟩ := asCubic_eq_some.mp hd
  exact h.here.curves hcurve (hopen.imp id h.behind.plain)

theorem straightCubic (h : Facing early True previous command next previous' other next') :
    Leads early True previous command other (straightCubic previous' other next') := by
  by_cases hstill : Still Edit.straightCubic previous' other next'
  · exact Or.inl ⟨hstill, h.here⟩
  obtain hkeep | ⟨d, hd, hx, hy, hcase⟩ := straightCubic_cases previous' other next'
  · exact absurd hkeep hstill
  rcases h.curves hd with ⟨c, hc, htwins, hfree⟩ | ⟨hend, hakin⟩
  · refine absurd (still_straightCubic_iff.mpr fun d' hd' => ?_) hstill
    obtain rfl := Option.some.inj (hd.symm.trans hd')
    have hbent := h.spent.straight c hc hfree
    refine ⟨fun hflat => hbent ⟨htwins.straight.symm.trans hflat.1, h.canFlatten hflat.2⟩, fun hdrop => ?_⟩
    have hown : c.still := htwins.still.symm.trans hdrop.1
    exact h.spent.dropped c hc hfree ⟨hown, h.canDrop hdrop.2 hc hown hbent⟩
  · rcases hcase with hcase | hcase
    · exact Or.inr ⟨_, hcase, .slanted trivial rfl hakin⟩
    · rw [Edit.straightCubic, hd] at hcase
      simp only [hx, hy, Bool.and_self, if_true] at hcase
      split at hcase
      · cases hcase
      · split at hcase
        · next hdrop =>
          simp only [Bool.and_eq_true] at hdrop
          exact absurd hdrop.1 hend
        · cases hcase

theorem axisCubic (h : Facing early slopes previous command next previous' other next') :
    Leads early slopes previous command other (axisCubic previous' other next') := by
  by_cases hstill : Still Edit.axisCubic previous' other next'
  · exact Or.inl ⟨hstill, h.here⟩
  obtain hkeep | ⟨d, hd, hcase⟩ := axisCubic_cases previous' other next'
  · exact absurd hkeep hstill
  rcases h.curves hd with ⟨c, hc, htwins, hfree⟩ | ⟨hend, hakin⟩
  · refine absurd (still_axisCubic_iff.mpr fun d' hd' hflat => ?_) hstill
    obtain rfl := Option.some.inj (hd.symm.trans hd')
    exact h.spent.axial c hc hfree ⟨htwins.axial.symm.trans hflat.1, h.canFlatten hflat.2⟩
  · rw [flat_reshape] at hakin
    rcases hcase with ⟨-, -, hx, hcase⟩ | ⟨-, -, hy, hcase⟩
    · rw [if_neg fun hy => hend ⟨hx, hy⟩, if_pos hx] at hakin
      exact Or.inr ⟨_, hcase, .level hakin⟩
    · rw [if_pos hy] at hakin
      exact Or.inr ⟨_, hcase, .level hakin⟩

theorem orphanSmooth (h : Facing True slopes previous command next previous' other next') :
    Leads False slopes previous command other (orphanSmooth previous' other next') := by
  have hsame : ∀ operands, other.isRelative .smoothCubic →
      ((other.reshape .cubic (zero :: zero :: operands)).reshape .smoothCubic operands).letter =
        other.letter := fun _ hsmooth => (beq_iff_eq.mp hsmooth).symm
  rcases orphanSmooth_cases previous' other next' with hkeep | ⟨horphan, hcase⟩
  · refine Or.inl ⟨hkeep, ?_⟩
    cases h.here with
    | level hakin => exact .level hakin
    | slanted hslopes hline hakin => exact .slanted hslopes hline hakin
    | curve c hc hend hakin => exact .curve c hc hend hakin
    | spelled x1 y1 rest hcubic ho hx hy hakin hpen hfree =>
      exact .spelled x1 y1 rest hcubic ho hx hy hakin hpen hfree
    | shortened _ hsmooth hakin hplain =>
      -- a smooth cubic is short for one that is spelled out only where there is nothing to reflect
      obtain ⟨b, hb, hb'⟩ := h.behind.plain_of_plain hplain
      have horphan : other.isOrphanSmooth previous' = true := by
        rw [Command.isOrphanSmooth, hsmooth, Bool.true_and, Option.any_eq_true]
        exact ⟨b, hb, by rw [hb']; rfl⟩
      rw [Edit.orphanSmooth, if_pos horphan] at hkeep
      cases hkeep
  · have hsmooth := (Bool.and_eq_true_iff.mp horphan).1
    refine Or.inr ⟨_, hcase, ?_⟩
    cases h.here with
    | level hakin =>
      obtain ⟨b, hb, hplain⟩ := h.behind.plain (exists_of_isOrphanSmooth horphan)
      refine .spelled .zero .zero other.operands rfl rfl rfl rfl (hakin.congr (hsame _ hsmooth) rfl) ?_
        (Or.inr (Or.inl ⟨b, hb, hplain⟩))
      rw [Option.mem_def.mp hb]
      simp [reflectsPen, hplain]
    | slanted _ hline => cases (kind_of_isRelative hsmooth).symm.trans (kind_of_isRelative hline)
    | curve c hc hend hakin =>
      obtain ⟨hcubic, -⟩ | ⟨-, ho, hx, hy⟩ := curve_cases hc
      · cases (kind_of_isRelative hsmooth).symm.trans (kind_of_isRelative hcubic)
      · refine .curve c (curve_of_cubic rfl ?_) hend hakin
        change zero :: zero :: other.operands = c.operands
        rw [ho, Cubic.operands, hx, hy]
    | spelled x1 y1 rest hcubic =>
      cases (kind_of_isRelative hsmooth).symm.trans (kind_of_isRelative hcubic)
    | shortened _ _ hakin => exact .level hakin

theorem contractSmooth (h : Facing False slopes previous command next previous' other next') :
    Leads False slopes previous command other (contractSmooth previous' other next') := by
  rcases contractSmooth_cases previous' other next' with
    hkeep | ⟨x1, y1, rest, ho, hcubic, hx, hy, hline, hcase⟩
  · exact Or.inl ⟨hkeep, h.here⟩
  refine Or.inr ⟨_, hcase, ?_⟩
  cases h.here with
  | level hakin =>
    -- the finished path has no such cubic behind a line
    have hcommand : command.isRelative .cubic := (hakin.isRelative _ (by decide)).symm.trans hcubic
    have htwins := hakin.twins
    rw [ho] at htwins
    rcases hoperands : command.operands with _ | ⟨a, _ | ⟨b, operands⟩⟩ <;> rw [hoperands] at htwins
    · cases htwins
    · cases htwins with
      | cons _ tail => cases tail
    · simp only [List.forall₂_cons] at htwins
      have hnone := still_contractSmooth_iff.mp h.spent.contracted a b operands hoperands hcommand
        (htwins.1.isZero.symm.trans hx) (htwins.2.1.isZero.symm.trans hy)
      cases hline.symm.trans (h.behind.line hnone)
  | slanted _ hslanted => cases (kind_of_isRelative hcubic).symm.trans (kind_of_isRelative hslanted)
  | curve c hc hend hakin =>
    rcases curve_cases hc with ⟨-, ho'⟩ | ⟨hsmooth, -⟩
    · obtain ⟨rfl, hrest⟩ := List.cons.inj (ho.symm.trans ho')
      obtain ⟨rfl, rfl⟩ := List.cons.inj hrest
      exact .curve ⟨.zero, .zero, c.x2, c.y2, c.x, c.y⟩ (curve_of_smooth rfl rfl) hend hakin
    · cases (kind_of_isRelative hsmooth).symm.trans (kind_of_isRelative hcubic)
  | spelled a b operands _ ho' _ _ hakin =>
    obtain ⟨-, hrest⟩ := List.cons.inj (ho.symm.trans ho')
    obtain ⟨-, rfl⟩ := List.cons.inj hrest
    exact .level hakin
  | shortened hearly => exact hearly.elim

theorem lineToAxis (h : Facing False True previous command next previous' other next') :
    Leads False False previous command other (lineToAxis previous' other next') := by
  have hflat : Variant False False previous command other.flat := by
    cases h.here with
    | level hakin =>
      rw [hakin.flat h.spent.flat]
      exact .level hakin
    | slanted _ _ hakin => exact .level hakin
    | curve c hc hend hakin =>
      rw [flat_of_kind fun hk => by
        have hcubic := isCubic_of_curve hc
        rw [hk] at hcubic
        cases hcubic]
      exact .curve c hc hend hakin
    | spelled x1 y1 rest hcubic ho hx hy hakin hpen hfree =>
      rw [flat_of_kind (by simp [kind_of_isRelative hcubic])]
      exact .spelled x1 y1 rest hcubic ho hx hy hakin hpen hfree
    | shortened hearly => exact hearly.elim
  obtain ⟨hkeep, hsame⟩ | hcase := lineToAxis_cases previous' other next'
  · exact Or.inl ⟨hkeep, hsame ▸ hflat⟩
  · exact Or.inr ⟨_, hcase, hflat⟩

lemma akin_of_line (h : Variant False False previous command other) (hline : isRelativeLine other) :
    Akin command other := by
  cases h with
  | level hakin => exact hakin
  | slanted hslopes => exact hslopes.elim
  | curve c hc => cases (not_line_of_isCubic (isCubic_of_curve hc)).symm.trans hline
  | spelled x1 y1 rest hcubic =>
    cases (not_line_of_isCubic (by rw [kind_of_isRelative hcubic]; rfl)).symm.trans hline
  | shortened hearly => exact hearly.elim

theorem mergeAxis (h : Facing False False previous command next previous' other next')
    (hnext : ∀ u ∈ next', ∃ after, Still Edit.contractSmooth (some other) u after) :
    Still mergeAxis previous' other next' := by
  by_cases haxis : isRelativeAxis other = true
  swap
  · refine still_mergeAxis_iff.mpr ⟨fun hzero => haxis (Bool.and_eq_true_iff.mp hzero.1).1, ?_⟩
    exact fun _ _ _ _ _ _ haxis' => absurd haxis' haxis
  have hline := isRelativeLine_of_axis haxis
  have hakin := akin_of_line h.here hline
  have hopen : ∀ {c : Command}, isRelativeAxis c → c.kind ≠ .close := by
    intro c hc
    rcases kind_of_isRelativeAxis hc with hk | hk <;> simp [hk]
  refine h.spent.merged.sameWay (hakin.sameWay (hopen (hakin.isRelativeAxis.symm.trans haxis))) ?_ ?_
  · intro b' hb' haxis'
    have hbehind := h.behind
    cases hbehind with
    | none => cases hb'
    | some hbefore =>
      obtain ⟨before, hbefore⟩ := hbefore
      obtain rfl := Option.some.inj hb'
      have hboth := akin_of_line hbefore (isRelativeLine_of_axis haxis')
      exact ⟨_, rfl, hboth.sameWay (hopen (hboth.isRelativeAxis.symm.trans haxis'))⟩
  · intro hall
    rw [Option.all_eq_true]
    intro follower hfollower
    have hahead := h.ahead
    cases hahead with
    | none => cases hfollower
    | some hu =>
      rcases hu.follower hfollower with hsame | ⟨rfl, -, hcubic, x1, y1, rest, ho, hx, hy⟩
      · rw [hsame] at hall
        exact h.behind.pens hall
      · obtain ⟨after, hstill⟩ := hnext _ rfl
        cases hline.symm.trans (still_contractSmooth_iff.mp hstill x1 y1 rest ho hcubic hx hy)

lemma isBreak_iff (h : Variant False False previous command other) : other.isBreak = command.isBreak := by
  have hcurved : ∀ {c : Command}, c.kind.isCubic → c.isBreak = false := fun hc =>
    Bool.eq_false_iff.mpr fun hbreak => Bool.false_ne_true ((not_isCubic_of_isBreak hbreak).symm.trans hc)
  cases h with
  | level hakin => exact hakin.isBreak
  | slanted hslopes => exact hslopes.elim
  | curve c hc hend hakin =>
    have hline := hakin.isRelativeLine.symm.trans (isRelativeLine_reshape other [c.x, c.y])
    rw [hcurved (isCubic_of_curve hc)]
    refine (Bool.eq_false_iff.mpr fun hbreak => ?_).symm
    cases (isRelativeLine_of_isBreak hbreak).symm.trans hline
  | spelled x1 y1 rest hcubic ho hx hy hakin =>
    rw [hcurved (by rw [kind_of_isRelative hcubic]; rfl), hcurved (by rw [← hakin.kind]; rfl)]
  | shortened hearly => exact hearly.elim

lemma fresh (h : Facing False False previous command next previous' other next') :
    other.kind = .move → ∃ d ∈ next', d.isBreak = false := by
  intro hmove
  have hcommand : command.kind = .move := by
    cases h.here with
    | level hakin => exact hakin.kind.symm.trans hmove
    | slanted hslopes => exact hslopes.elim
    | curve c hc =>
      have hcubic := isCubic_of_curve hc
      rw [hmove] at hcubic
      cases hcubic
    | spelled x1 y1 rest hcubic => cases hmove.symm.trans (kind_of_isRelative hcubic)
    | shortened hearly => exact hearly.elim
  obtain ⟨d, hd, hbreak⟩ := h.spent.fresh hcommand
  have hahead := h.ahead
  cases hahead with
  | none => cases hd
  | some hu =>
    obtain rfl := Option.some.inj hd
    exact ⟨_, rfl, (isBreak_iff hu).trans hbreak⟩

end Facing

end Facing

end TersePath
