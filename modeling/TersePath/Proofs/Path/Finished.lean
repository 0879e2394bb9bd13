import TersePath.Proofs.Path.Variant

/-! What is left for the rules on the path that they leave. A curve that could be told from its kept
spelling was looked at when it still had its own control points, and nothing that came after it gave it
another follower: a smooth command that reflects something is never touched. -/

namespace TersePath

open Binary64 Edit

/-- A smooth quadratic stays behind a command, and a smooth cubic where it reflects something. -/
def Guards (command : Command) (next next' : Option Command) : Prop :=
  ∀ follower, Command.follower? next = some follower →
    (follower = .smoothCubic → reflectsPen (some command) .smoothCubic = false) →
    Command.follower? next' = some follower

/-- An edit that leaves guarded followers alone, and merges nothing. -/
structure Guarding (edit : Option Command → Command → Option Command → Edit) : Prop where
  apart : ∀ previous command next other, edit previous command next ≠ .merge other
  keeps : ∀ before command next follower, Command.follower? (some command) = some follower →
    (follower = .smoothCubic → reflectsPen (some before) .smoothCubic = false) →
    edit (some before) command next = .keep

/-- The curve of a command that was a cubic from the start leads somewhere, off its chord. -/
def Bent (previous : Option Command) (command : Command) (next : Option Command) : Prop :=
  command.CameAs .cubic → ∀ c, command.curve? = some c →
    ¬(c.straight ∧ canFlatten command next) ∧ ¬(c.still ∧ canDrop previous command next)

def OffAxis (previous : Option Command) (command : Command) (next : Option Command) : Prop :=
  command.Free previous → ∀ c, command.curve? = some c → ¬(c.axial ∧ canFlatten command next)

def SpelledOut (previous : Option Command) (command : Command) (_ : Option Command) : Prop :=
  command.isRelative .cubic → command.CameAs .smoothCubic →
    (∃ b ∈ previous, b.kind.isCubic = false) ∧ ∃ rest, command.operands = .zero :: .zero :: rest

def Faithful (command : Command) : Prop :=
  command.kind.isCubic → ∀ kind, command.CameAs kind → command.kind = kind

section Guards

variable {previous previous' next next' : Option Command} {command other : Command} {c : Cubic}

lemma follower_cases {follower : Kind} (h : Command.follower? next = some follower) :
    follower = .smoothCubic ∨ follower = .smoothQuadratic := by
  have hsmooth := (Option.filter_eq_some_iff.mp h).2
  rw [Kind.isSmooth, Bool.or_eq_true, beq_iff_eq, beq_iff_eq] at hsmooth
  exact hsmooth

lemma kind_of_follower {follower : Kind} (h : Command.follower? (some command) = some follower) :
    command.kind = follower :=
  Option.some.inj (Option.filter_eq_some_iff.mp h).1

lemma isCubic_of_reflects (h : reflectsPen (some command) .smoothCubic = false) :
    command.kind.isCubic := by
  simp only [reflectsPen, Bool.or_eq_false_iff, Bool.not_eq_false'] at h
  exact h.1

lemma Guards.canFlatten (h : Guards other next next')
    (hpens : reflectsPen (some other) = reflectsPen (some command))
    (hflat : TersePath.canFlatten other next') : TersePath.canFlatten command next := by
  rw [TersePath.canFlatten] at hflat ⊢
  rw [Option.all_eq_true, ← hpens]
  intro follower hfollower
  by_contra hpen
  have hstays := h follower hfollower fun hk => Bool.eq_false_iff.mpr (hk ▸ hpen)
  rw [hstays] at hflat
  exact hpen hflat

lemma Guards.canDrop (h : Guards other next next')
    (hpens : reflectsPen (some other) = reflectsPen (some command))
    (hquadratic : reflectsPen previous' .smoothQuadratic → reflectsPen previous .smoothQuadratic)
    (hdrop : TersePath.canDrop previous' other next') (hc : command.curve? = some c) (hstill : c.still)
    (hbent : ¬(c.straight ∧ TersePath.canFlatten command next)) :
    TersePath.canDrop previous command next := by
  have hflat := h.canFlatten hpens (canFlatten_of_canDrop hdrop)
  rw [TersePath.canDrop, Option.all_eq_true]
  intro follower hfollower
  have hown : reflectsPen (some command) follower := by
    rw [TersePath.canFlatten, hfollower] at hflat
    exact hflat
  refine Bool.and_eq_true_iff.mpr ⟨hown, ?_⟩
  rcases follower_cases hfollower with rfl | rfl
  · refine absurd ⟨straight_of_still hc hstill ?_, hflat⟩ hbent
    rwa [reflectsPen_of_isCubic (isCubic_of_curve hc)] at hown
  · rw [TersePath.canDrop, h _ hfollower (by simp)] at hdrop
    exact hquadratic (Bool.and_eq_true_iff.mp hdrop).2

lemma asCubic_of_guarded {before : Command} {follower : Kind}
    (hfollower : Command.follower? (some command) = some follower)
    (hguard : follower = .smoothCubic → reflectsPen (some before) .smoothCubic = false) :
    command.asCubic (some before) = none := by
  have hkind := kind_of_follower hfollower
  rw [Option.eq_none_iff_forall_ne_some]
  intro c hc
  obtain ⟨hcurve, hopen⟩ := asCubic_eq_some.mp hc
  have hcubic := isCubic_of_curve hcurve
  rcases follower_cases hfollower with rfl | rfl
  · rcases hopen with hk | ⟨b, hb, hplain⟩
    · cases hk.symm.trans hkind
    · obtain rfl := Option.some.inj hb
      cases hplain.symm.trans (isCubic_of_reflects (hguard rfl))
  · rw [hkind] at hcubic
    cases hcubic

lemma guarding_straightCubic : Guarding straightCubic := by
  refine ⟨not_merge_straightCubic, fun before command next follower hfollower hguard => ?_⟩
  rw [straightCubic, asCubic_of_guarded hfollower hguard]

lemma guarding_axisCubic : Guarding axisCubic := by
  refine ⟨not_merge_axisCubic, fun before command next follower hfollower hguard => ?_⟩
  rw [axisCubic, asCubic_of_guarded hfollower hguard]

lemma guarding_orphanSmooth : Guarding orphanSmooth := by
  refine ⟨not_merge_orphanSmooth, fun before command next follower hfollower hguard => if_neg ?_⟩
  intro horphan
  have hsmooth := kind_of_isRelative (Bool.and_eq_true_iff.mp horphan).1
  obtain ⟨b, hb, hplain⟩ := exists_of_isOrphanSmooth horphan
  obtain rfl := Option.some.inj hb
  cases hplain.symm.trans (isCubic_of_reflects (hguard ((kind_of_follower hfollower).symm.trans hsmooth)))

lemma guarding_contractSmooth : Guarding contractSmooth := by
  refine ⟨not_merge_contractSmooth, fun before command next follower hfollower _ => ?_⟩
  refine still_contractSmooth_of_kind fun hk => ?_
  cases (follower_of_cubic hk).symm.trans hfollower

lemma guarding_lineToAxis : Guarding lineToAxis := by
  refine ⟨not_merge_lineToAxis, fun before command next follower hfollower _ => ?_⟩
  have hline : command.isRelative .line = false := Bool.eq_false_iff.mpr fun hline => by
    cases (not_follower_of_line (isRelativeLine_of_line hline)).symm.trans hfollower
  rw [lineToAxis, hline]
  split <;> rfl

def Puts (edit : Option Command → Command → Option Command → Edit) (previous : Option Command)
    (command : Command) (next : Option Command) (other : Command) : Prop :=
  edit previous command next = .keep ∧ other = command ∨ edit previous command next = .replace other

/-- What a sweep does to windows, if single edits do it with guarded followers. -/
theorem windows_of_sweep {edit : Option Command → Command → Option Command → Edit}
    {old ok : Option Command → Command → Option Command → Prop}
    (link : Option Command → Option Command → Prop) (hedit : Guarding edit)
    (hputs : ∀ {p q c n n' y}, link p q → old p c n → Puts edit q c n y → Guards y n n' →
      ok q y n' ∧ link (some c) (some y))
    (hdrop : ∀ {p q c n}, link p q → old p c n → edit q c n = .drop → link (some c) q)
    {commands : List Command} (hlink : link previous previous') (h : Windows old previous commands) :
    ∃ others, sweep edit previous' commands = previous'.toList ++ others ∧ Windows ok previous' others ∧
      ∀ b ∈ previous', Guards b commands.head? others.head? := by
  induction commands generalizing previous previous' with
  | nil => exact ⟨[], by rw [sweep, List.append_nil], trivial, fun _ _ _ => by simp [Command.follower?]⟩
  | cons command rest ih =>
    -- what guards a follower keeps the edit away from it
    have hstays : edit previous' command rest.head? ≠ .keep →
        ∀ b ∈ previous', ∀ n, Guards b (some command) n := by
      intro hne b hb n follower hfollower hguard
      obtain rfl := Option.mem_def.mp hb
      exact absurd (hedit.keeps _ _ _ _ hfollower hguard) hne
    have hput : ∀ {y}, Puts edit previous' command rest.head? y → ∃ others,
        sweep edit (some y) rest = y :: others ∧ Windows ok previous' (y :: others) := by
      intro y hy
      obtain ⟨others, hsweep, hwindows, hguards⟩ := ih (hputs hlink h.1 hy fun _ hf _ => hf).2 h.2
      exact ⟨others, hsweep, (hputs hlink h.1 hy (hguards y rfl)).1, hwindows⟩
    cases hcase : edit previous' command rest.head? with
    | keep =>
      obtain ⟨others, hsweep, hwindows⟩ := hput (Or.inl ⟨hcase, rfl⟩)
      refine ⟨command :: others, ?_, hwindows, fun _ _ _ hf _ => hf⟩
      rw [sweep, hcase]
      exact congrArg (previous'.toList ++ ·) hsweep
    | replace other =>
      obtain ⟨others, hsweep, hwindows⟩ := hput (Or.inr hcase)
      refine ⟨other :: others, ?_, hwindows, fun b hb => hstays (by simp [hcase]) b hb _⟩
      rw [sweep, hcase]
      exact congrArg (previous'.toList ++ ·) hsweep
    | drop =>
      obtain ⟨others, hsweep, hwindows, -⟩ := ih (hdrop hlink h.1 hcase) h.2
      refine ⟨others, ?_, hwindows, fun b hb => hstays (by simp [hcase]) b hb _⟩
      rw [sweep, hcase, hsweep]
    | merge other => exact absurd hcase (hedit.apart _ _ _ _)

lemma windows_sweep_all {edit : Option Command → Command → Option Command → Edit}
    {old ok : Option Command → Command → Option Command → Prop}
    (link : Option Command → Option Command → Prop) (hedit : Guarding edit)
    (hputs : ∀ {p q c n n' y}, link p q → old p c n → Puts edit q c n y → Guards y n n' →
      ok q y n' ∧ link (some c) (some y))
    (hdrop : ∀ {p q c n}, link p q → old p c n → edit q c n = .drop → link (some c) q)
    {commands : List Command} (hlink : link none none) (h : Windows old none commands) :
    Windows ok none (sweep edit none commands) := by
  obtain ⟨others, hsweep, hwindows, -⟩ := windows_of_sweep link hedit hputs hdrop hlink h
  have hall : sweep edit none commands = others := hsweep
  rwa [hall]

end Guards

section Rules

variable {previous previous' next next' : Option Command} {command other : Command} {c : Cubic}
  {commands : List Command}

structure Redrawn (command other : Command) : Prop where
  text : other.absoluteText = command.absoluteText
  curve : ∀ d, other.curve? = some d → (∃ c, command.curve? = some c ∧ c.Twins d) ∧
    reflectsPen (some other) = reflectsPen (some command)

lemma Redrawn.refl (command : Command) : Redrawn command command :=
  ⟨rfl, fun d hd => ⟨⟨d, hd, .refl d⟩, rfl⟩⟩

lemma curve_of_plain (h : command.kind.isCubic = false) (c : Cubic) : command.curve? ≠ some c :=
  fun hc => Bool.false_ne_true (h.symm.trans (isCubic_of_curve hc))

lemma reflectsPen_congr (hcommand : command.kind.isCubic) (hother : other.kind.isCubic)
    (h : other.operands.reverse.take 4 = command.operands.reverse.take 4) :
    reflectsPen (some other) = reflectsPen (some command) := by
  funext follower
  rw [reflectsPen_of_isCubic hcommand, reflectsPen_of_isCubic hother, endsAtControl_congr h]

lemma redrawn_cubic (hsmooth : command.isRelative .smoothCubic) :
    Redrawn command (command.reshape .cubic (zero :: zero :: command.operands)) := by
  refine ⟨rfl, fun d hd => ?_⟩
  rcases curve_cases hd with ⟨-, ho⟩ | ⟨hk, -⟩
  · simp only [Command.reshape, Cubic.operands, List.cons.injEq] at ho
    obtain ⟨hx, hy, ho⟩ := ho
    refine ⟨⟨d, ?_, .refl d⟩, reflectsPen_congr ?_ rfl ?_⟩
    · rw [curve_of_smooth hsmooth ho]
      exact congrArg₂ (fun x1 y1 => some (Cubic.mk x1 y1 d.x2 d.y2 d.x d.y)) hx hy
    · rw [kind_of_isRelative hsmooth]
      rfl
    · rw [Command.reshape, ho]
      rfl
  · cases kind_of_isRelative hk

lemma redrawn_smooth {x1 y1 : Binary64} {rest : List Binary64} (ho : command.operands = x1 :: y1 :: rest)
    (hcubic : command.isRelative .cubic) (hx : x1.isZero) (hy : y1.isZero) :
    Redrawn command (command.reshape .smoothCubic rest) := by
  refine ⟨rfl, fun d hd => ?_⟩
  rcases curve_cases hd with ⟨hk, -⟩ | ⟨-, hrest, hx', hy'⟩
  · cases kind_of_isRelative hk
  · obtain rfl : rest = [d.x2, d.y2, d.x, d.y] := hrest
    refine ⟨⟨⟨x1, y1, d.x2, d.y2, d.x, d.y⟩, curve_of_cubic hcubic ho, ?_⟩, reflectsPen_congr ?_ rfl ?_⟩
    · exact ⟨Or.inr ⟨hx, by rw [hx']; rfl⟩, Or.inr ⟨hy, by rw [hy']; rfl⟩, .refl _, .refl _, .refl _, .refl _⟩
    · rw [kind_of_isRelative hcubic]
      rfl
    · rw [ho]
      rfl

lemma Replaces.redrawn (h : Replaces previous command other) : Redrawn command other := by
  have hline : ∀ {line : Command}, line.absoluteText = command.absoluteText →
      line.kind.isCubic = false → Redrawn command line := fun htext hplain =>
    ⟨htext, fun d hd => absurd hd (curve_of_plain hplain d)⟩
  cases h with
  | straight => exact hline rfl rfl
  | vertical => exact hline rfl rfl
  | horizontal => exact hline rfl rfl
  | spelledOut h => exact redrawn_cubic (Bool.and_eq_true_iff.mp h).1
  | smooth x1 y1 rest ho hcubic hx hy => exact redrawn_smooth ho hcubic hx hy
  | flat =>
    rcases kind_flat command with hflat | ⟨-, hk | hk⟩
    · rw [hflat]
      exact .refl command
    · exact hline (absoluteText_flat command) (by rw [hk]; rfl)
    · exact hline (absoluteText_flat command) (by rw [hk]; rfl)

lemma Puts.redrawn {edit : Option Command → Command → Option Command → Edit} (hedit : Lawful edit)
    (h : Puts edit previous command next other) : Redrawn command other := by
  rcases h with ⟨-, rfl⟩ | h
  · exact .refl _
  · exact (hedit.replaces _ _ _ _ h).redrawn

lemma Redrawn.cameAs (h : Redrawn command other) {kind : Kind} (hcame : other.CameAs kind) :
    command.CameAs kind := by
  obtain ⟨text, htext, hhead⟩ := hcame
  exact ⟨text, h.text ▸ htext, hhead⟩

lemma Bent.carry (h : Bent previous command next) (hredrawn : Redrawn command other)
    (hguards : Guards other next next')
    (hpens : reflectsPen previous' .smoothQuadratic → reflectsPen previous .smoothQuadratic) :
    Bent previous' other next' := by
  intro hcame d hd
  obtain ⟨⟨c, hc, htwins⟩, hown⟩ := hredrawn.curve d hd
  obtain ⟨hbent, hleads⟩ := h (hredrawn.cameAs hcame) c hc
  rw [htwins.straight, htwins.still]
  exact ⟨fun hflat => hbent ⟨hflat.1, hguards.canFlatten hown hflat.2⟩,
    fun hdrop => hleads ⟨hdrop.1, hguards.canDrop hown hpens hdrop.2 hc hdrop.1 hbent⟩⟩

lemma OffAxis.carry (h : OffAxis previous command next) (hredrawn : Redrawn command other)
    (hguards : Guards other next next') (hfree : other.Free previous' → command.Free previous) :
    OffAxis previous' other next' := by
  intro hother d hd hflat
  obtain ⟨⟨c, hc, htwins⟩, hown⟩ := hredrawn.curve d hd
  rw [htwins.axial] at hflat
  exact h (hfree hother) c hc ⟨hflat.1, hguards.canFlatten hown hflat.2⟩

lemma bent_of_plain (h : command.kind.isCubic = false) : Bent previous command next :=
  fun _ c hc => absurd hc (curve_of_plain h c)

lemma offAxis_of_plain (h : command.kind.isCubic = false) : OffAxis previous command next :=
  fun _ c hc => absurd hc (curve_of_plain h c)

lemma faithful_of_plain (h : command.kind.isCubic = false) : Faithful command :=
  fun hcubic => absurd (h.symm.trans hcubic) Bool.false_ne_true

lemma bent_of_still (h : Still straightCubic previous command next) (hfaithful : Faithful command) :
    Bent previous command next := by
  intro hcame c hc
  have hk := hfaithful (isCubic_of_curve hc) .cubic hcame
  exact still_straightCubic_iff.mp h c (asCubic_eq_some.mpr ⟨hc, Or.inl hk⟩)

lemma offAxis_of_still (h : Still axisCubic previous command next) (hfaithful : Faithful command) :
    OffAxis previous command next := by
  intro hfree c hc
  refine still_axisCubic_iff.mp h c (asCubic_eq_some.mpr ⟨hc, ?_⟩)
  rcases hfree with hk | hplain | hcame
  · exact Or.inl hk
  · exact Or.inr hplain
  · exact Or.inl (hfaithful (isCubic_of_curve hc) .cubic hcame)

lemma windows_bent (h : ∀ c ∈ commands, Faithful c) :
    Windows (fun p c n => Faithful c ∧ Bent p c n) none (sweep straightCubic none commands) := by
  refine windows_sweep_all (fun _ _ => True) guarding_straightCubic ?_ (fun _ _ _ => trivial)
    trivial (windows_of_forall h)
  rintro p q c n n' y - hfaithful (⟨hkeep, rfl⟩ | hreplace) hguards
  · exact ⟨⟨hfaithful, (bent_of_still hkeep hfaithful).carry (.refl _) hguards id⟩, trivial⟩
  · have hplain : y.kind.isCubic = false := by
      rw [(kind_of_straightCubic hreplace).2]
      rfl
    exact ⟨⟨faithful_of_plain hplain, bent_of_plain hplain⟩, trivial⟩

lemma windows_offAxis (h : Windows (fun p c n => Faithful c ∧ Bent p c n) none commands) :
    Windows (fun p c n => Faithful c ∧ Bent p c n ∧ OffAxis p c n) none (sweep axisCubic none commands) := by
  refine windows_sweep_all (fun p q => reflectsPen q .smoothQuadratic → reflectsPen p .smoothQuadratic)
    guarding_axisCubic ?_ ?_ id h
  · rintro p q c n n' y hpens ⟨hfaithful, hbent⟩ hputs hguards
    have hbent' := hbent.carry (hputs.redrawn .axisCubic) hguards hpens
    rcases hputs with ⟨hkeep, rfl⟩ | hreplace
    · exact ⟨⟨hfaithful, hbent', (offAxis_of_still hkeep hfaithful).carry (.refl _) hguards id⟩, id⟩
    · obtain ⟨hcubic, hk⟩ := kind_of_axisCubic hreplace
      have hplain : y.kind.isCubic = false := by
        rcases hk with hk | hk <;> rw [hk] <;> rfl
      exact ⟨⟨faithful_of_plain hplain, hbent', offAxis_of_plain hplain⟩,
        fun _ => reflectsPen_of_isCubic hcubic _⟩
  · intro p q c n _ _ hdrop
    obtain hcase | ⟨_, -, ⟨-, -, -, hcase⟩ | ⟨-, -, -, hcase⟩⟩ := axisCubic_cases q c n
    all_goals cases hcase.symm.trans hdrop

/-- Two commands that smooth ones see as the same. -/
structure Link (previous previous' : Option Command) : Prop where
  pens : reflectsPen previous' .smoothQuadratic → reflectsPen previous .smoothQuadratic
  plain : (∃ b ∈ previous', b.kind.isCubic = false) ↔ ∃ b ∈ previous, b.kind.isCubic = false

/-- A command between its neighbours after the rules on cubics. -/
structure Firm (previous : Option Command) (command : Command) (next : Option Command) : Prop where
  bent : Bent previous command next
  offAxis : OffAxis previous command next
  spelledOut : SpelledOut previous command next

lemma link_of_same (h : other.kind.isCubic = command.kind.isCubic)
    (hpens : reflectsPen (some command) .smoothQuadratic) : Link (some command) (some other) :=
  ⟨fun _ => hpens, by simp [h]⟩

lemma Link.free (h : Link previous previous') (hfree : command.Free previous') : command.Free previous :=
  hfree.imp id (Or.imp h.plain.mp id)

lemma windows_firm (h : Windows (fun p c n => Faithful c ∧ Bent p c n ∧ OffAxis p c n) none commands) :
    Windows Firm none (sweep orphanSmooth none commands) := by
  refine windows_sweep_all Link guarding_orphanSmooth ?_ ?_ ⟨id, Iff.rfl⟩ h
  · rintro p q c n n' y hlink ⟨hfaithful, hbent, hoffAxis⟩ hputs hguards
    have hredrawn := hputs.redrawn .orphanSmooth
    have hbent' := hbent.carry hredrawn hguards hlink.pens
    rcases hputs with ⟨-, rfl⟩ | hreplace
    · refine ⟨⟨hbent', hoffAxis.carry hredrawn hguards hlink.free, fun hk hcame => ?_⟩, id, Iff.rfl⟩
      have hkind := kind_of_isRelative hk
      cases hkind.symm.trans (hfaithful (by rw [hkind]; rfl) .smoothCubic hcame)
    · obtain hcase | ⟨horphan, hcase⟩ := orphanSmooth_cases q c n
      · cases hcase.symm.trans hreplace
      obtain rfl := Edit.replace.inj (hcase.symm.trans hreplace)
      have hcubic : c.kind.isCubic = true := by
        rw [kind_of_isRelative (Bool.and_eq_true_iff.mp horphan).1]
        rfl
      have hplain := exists_of_isOrphanSmooth horphan
      refine ⟨⟨hbent', hoffAxis.carry hredrawn hguards fun _ => Or.inr (Or.inl (hlink.plain.mp hplain)),
        fun _ _ => ⟨hplain, _, rfl⟩⟩, link_of_same hcubic.symm (reflectsPen_of_isCubic hcubic _)⟩
  · intro p q c n _ _ hdrop
    obtain hcase | ⟨-, hcase⟩ := orphanSmooth_cases q c n
    all_goals cases hcase.symm.trans hdrop

lemma Firm.sweep {edit : Option Command → Command → Option Command → Edit} (hedit : Guarding edit)
    (hlawful : Lawful edit) (hdrop : ∀ p c n, edit p c n ≠ .drop)
    (hsame : ∀ {p c n y}, edit p c n = .replace y → y.kind ≠ .cubic ∧
      (y.kind.isCubic → c.kind = .cubic) ∧ Link (some c) (some y)) (h : Windows Firm none commands) :
    Windows Firm none (TersePath.sweep edit none commands) := by
  refine windows_sweep_all Link hedit ?_ (fun _ _ hcase => absurd hcase (hdrop _ _ _))
    ⟨id, Iff.rfl⟩ h
  intro p q c n n' y hlink hfirm hputs hguards
  have hredrawn := hputs.redrawn hlawful
  have hbent := hfirm.bent.carry hredrawn hguards hlink.pens
  rcases hputs with ⟨-, rfl⟩ | hreplace
  · refine ⟨⟨hbent, hfirm.offAxis.carry hredrawn hguards hlink.free, fun hk hcame => ?_⟩, id, Iff.rfl⟩
    obtain ⟨hplain, hzero⟩ := hfirm.spelledOut hk hcame
    exact ⟨hlink.plain.mpr hplain, hzero⟩
  · obtain ⟨hk, hcubic, hsame⟩ := hsame hreplace
    refine ⟨⟨hbent, ?_, fun hother => absurd (kind_of_isRelative hother) hk⟩, hsame⟩
    cases hy : y.kind.isCubic with
    | false => exact offAxis_of_plain hy
    | true => exact hfirm.offAxis.carry hredrawn hguards fun _ => Or.inl (hcubic hy)

lemma Firm.contractSmooth (h : Windows Firm none commands) :
    Windows Firm none (TersePath.sweep contractSmooth none commands) := by
  refine Firm.sweep guarding_contractSmooth .contractSmooth (fun p c n hcase => ?_) (fun hreplace => ?_) h
  · rcases contractSmooth_single p c n with hkeep | ⟨other, hother, -⟩
    · cases hkeep.symm.trans hcase
    · cases hother.symm.trans hcase
  · obtain ⟨hcubic, hsmooth⟩ := kind_of_contractSmooth hreplace
    rw [hsmooth]
    refine ⟨by simp, fun _ => hcubic, link_of_same (by rw [hsmooth, hcubic]; rfl) ?_⟩
    exact reflectsPen_of_isCubic (by rw [hcubic]; rfl) _

lemma Firm.lineToAxis (h : Windows Firm none commands) :
    Windows Firm none (TersePath.sweep lineToAxis none commands) := by
  refine Firm.sweep guarding_lineToAxis .lineToAxis (fun p c n hcase => ?_) (fun {p c n y} hreplace => ?_) h
  · rcases lineToAxis_cases p c n with ⟨hkeep, -⟩ | hother
    · cases hkeep.symm.trans hcase
    · cases hother.symm.trans hcase
  · have hline : isRelativeLine c := by
      refine isRelativeLine_of_line ?_
      by_contra hline
      rw [lineToAxis.eq_def] at hreplace
      split at hreplace <;> simp [hline] at hreplace
    have hflat : isRelativeLine y := by
      rw [eq_flat_of_lineToAxis hreplace]
      exact (isRelativeLine_flat c).trans hline
    have hplain := not_isCubic_of_line hflat
    refine ⟨fun hk => ?_, fun hcubic => ?_, link_of_same ?_ (reflectsPen_of_line hline _)⟩
    · rw [hk] at hplain
      cases hplain
    · cases hplain.symm.trans hcubic
    · rw [hplain, not_isCubic_of_line hline]

namespace Firm

lemma of_plain (h : command.kind.isCubic = false) : Firm previous command next := by
  refine ⟨bent_of_plain h, offAxis_of_plain h, fun hcubic => ?_⟩
  rw [kind_of_isRelative hcubic] at h
  cases h

lemma before_line {line : Command} (h : Firm previous command (some line)) (hline : isRelativeLine line)
    (next : Option Command) : Firm previous command next := by
  have hnone := not_follower_of_line hline
  refine ⟨fun hcame c hc => ?_, fun hfree c hc hflat => ?_, h.spelledOut⟩
  · obtain ⟨hbent, hleads⟩ := h.bent hcame c hc
    exact ⟨fun hflat => hbent ⟨hflat.1, by rw [canFlatten, hnone]; rfl⟩,
      fun hdrop => hleads ⟨hdrop.1, by rw [canDrop, hnone]; rfl⟩⟩
  · exact h.offAxis hfree c hc ⟨hflat.1, by rw [canFlatten, hnone]; rfl⟩

lemma after {before : Command} (h : Firm (some before) command next) (hplain : before.kind.isCubic = false)
    (hpens : ∀ follower, reflectsPen (some before) follower)
    (hshort : ∀ rest, command.operands = .zero :: .zero :: rest → command.isRelative .cubic →
      ∃ b ∈ previous, b.kind.isCubic = false) : Firm previous command next := by
  refine ⟨fun hcame c hc => ?_, fun _ => h.offAxis (Or.inr (Or.inl ⟨before, rfl, hplain⟩)), fun hk hcame => ?_⟩
  · obtain ⟨hbent, hleads⟩ := h.bent hcame c hc
    refine ⟨hbent, fun hdrop => hleads ⟨hdrop.1, ?_⟩⟩
    have hflat := canFlatten_of_canDrop hdrop.2
    simpa only [canFlatten, canDrop, hpens, Bool.and_true] using hflat
  · obtain ⟨-, rest, ho⟩ := h.spelledOut hk hcame
    exact ⟨hshort rest ho hk, rest, ho⟩

lemma after_line {line : Command} (h : Firm (some line) command next)
    (hcontracted : Still Edit.contractSmooth (some line) command next) (hline : isRelativeLine line)
    (previous : Option Command) : Firm previous command next := by
  refine h.after (not_isCubic_of_line hline) (reflectsPen_of_line hline) fun rest ho hcubic => ?_
  cases hline.symm.trans (still_contractSmooth_iff.mp hcontracted zero zero rest ho hcubic rfl rfl)

lemma sees : SeesFollower Firm := by
  intro previous command next other hnext h
  have hflat : canFlatten command other = canFlatten command next := by rw [canFlatten, canFlatten, hnext]
  have hdrop : canDrop previous command other = canDrop previous command next := by
    rw [canDrop, canDrop, hnext]
  refine ⟨?_, ?_, h.spelledOut⟩
  · rw [Bent, hflat, hdrop]
    exact h.bent
  · rw [OffAxis, hflat]
    exact h.offAxis

lemma drawn : Drawn Firm where
  sees := sees
  gap hbreak _ _ := of_plain (not_isCubic_of_isBreak hbreak)
  after {gap other} hgap hother command next h := by
    refine h.after (not_isCubic_of_isBreak hgap) (fun follower => reflectsPen_of_isBreak hgap follower) ?_
    exact fun _ _ _ => ⟨other, rfl, not_isCubic_of_isBreak hother⟩

lemma windows_after {line : Command} (hline : isRelativeLine line)
    (h : Windows (fun p c n => Firm p c n ∧ Still Edit.contractSmooth p c n) (some line) commands)
    (previous : Option Command) :
    Windows (fun p c n => Firm p c n ∧ Still Edit.contractSmooth p c n) previous commands :=
  h.after fun _ _ hok => ⟨hok.1.after_line hok.2 hline previous, hok.2.after_line hline previous⟩

lemma mergeAxis (h : Windows Firm none commands) (hcontracted : Windows (Still Edit.contractSmooth) none commands) :
    Windows Firm none (TersePath.sweep mergeAxis none commands) := by
  have hlines : Windows _ none ((none : Option Command).toList ++ commands) := h.and hcontracted
  refine (windows_sweep shortens_mergeAxis (fun _ _ _ _ hnext hok => ⟨sees _ _ _ _ hnext hok.1, hok.2⟩)
    ?_ ?_ hlines).imp fun _ _ _ => And.left
  · intro before previous command rest hdrop hwindows
    obtain hcase | ⟨-, hzero, -⟩ | ⟨_, a, b, -, -, -, -, -, -, hcase⟩ :=
      mergeAxis_cases previous command rest.head?
    · cases hcase.symm.trans hdrop
    · have hline := isRelativeLine_of_axis (Bool.and_eq_true_iff.mp hzero).1
      cases previous with
      | none => exact windows_after hline hwindows.2 _
      | some previous =>
        exact ⟨⟨hwindows.1.1.before_line hline _, hwindows.1.2⟩, windows_after hline hwindows.2.2 _⟩
    · cases hcase.symm.trans hdrop
  · intro before previous command rest other hmerge hwindows
    obtain hcase | ⟨hcase, -⟩ | ⟨_, a, b, -, -, -, haxis, -, -, hcase⟩ :=
      mergeAxis_cases (some previous) command rest.head?
    · cases hcase.symm.trans hmerge
    · cases hcase.symm.trans hmerge
    · obtain rfl := Edit.merge.inj (hcase.symm.trans hmerge)
      have hline := isRelativeLine_of_axis haxis
      exact ⟨⟨of_plain (not_isCubic_of_line hline),
        still_contractSmooth_of_kind (kind_ne_cubic_of_axis haxis)⟩, windows_after hline hwindows.2.2 _⟩

end Firm

end Rules

section Straight

variable {previous next : Option Command} {command other : Command} {commands : List Command}

lemma sweep_append {edit : Option Command → Command → Option Command → Edit}
    (hmerge : ∀ previous command next other, edit previous command next ≠ .merge other)
    (previous : Option Command) (commands : List Command) :
    ∃ others, sweep edit previous commands = previous.toList ++ others ∧ others.length ≤ commands.length := by
  induction commands generalizing previous with
  | nil => exact ⟨[], by rw [sweep, List.append_nil], le_rfl⟩
  | cons command rest ih =>
    cases hcase : edit previous command rest.head? with
    | keep =>
      obtain ⟨others, hsweep, hlength⟩ := ih (some command)
      refine ⟨command :: others, ?_, Nat.succ_le_succ hlength⟩
      rw [sweep, hcase]
      exact congrArg (previous.toList ++ ·) hsweep
    | replace other =>
      obtain ⟨others, hsweep, hlength⟩ := ih (some other)
      refine ⟨other :: others, ?_, Nat.succ_le_succ hlength⟩
      rw [sweep, hcase]
      exact congrArg (previous.toList ++ ·) hsweep
    | drop =>
      obtain ⟨others, hsweep, hlength⟩ := ih previous
      exact ⟨others, by rw [sweep, hcase, hsweep], hlength.trans (Nat.le_succ _)⟩
    | merge other => exact absurd hcase (hmerge _ _ _ _)

lemma windows_of_sweep_eq {edit : Option Command → Command → Option Command → Edit}
    (hmerge : ∀ previous command next other, edit previous command next ≠ .merge other)
    (hreplace : ∀ previous command next, edit previous command next ≠ .replace command)
    (h : sweep edit previous commands = previous.toList ++ commands) :
    Windows (Still edit) previous commands := by
  induction commands generalizing previous with
  | nil => trivial
  | cons command rest ih =>
    rw [sweep] at h
    cases hcase : edit previous command rest.head? with
    | keep =>
      rw [hcase] at h
      exact ⟨hcase, ih (List.append_cancel_left h)⟩
    | replace other =>
      rw [hcase] at h
      obtain ⟨others, hsweep, -⟩ := sweep_append hmerge (some other) rest
      obtain ⟨rfl, -⟩ := List.cons.inj (hsweep.symm.trans (List.append_cancel_left h))
      exact absurd hcase (hreplace _ _ _)
    | drop =>
      rw [hcase] at h
      obtain ⟨others, hsweep, hlength⟩ := sweep_append hmerge previous rest
      have hsame := congrArg List.length (List.append_cancel_left (hsweep.symm.trans h))
      rw [List.length_cons] at hsame
      omega
    | merge other => exact absurd hcase (hmerge _ _ _ _)

lemma drawn_straight : Drawn (Still straightCubic) where
  sees previous command next other hnext h := by
    rw [still_straightCubic_iff] at h ⊢
    rwa [canFlatten, canDrop, ← hnext]
  gap {command} hbreak previous next := by
    refine still_straightCubic_iff.mpr fun c hc => ?_
    cases (not_isCubic_of_isBreak hbreak).symm.trans (isCubic_of_curve (asCubic_eq_some.mp hc).1)
  after {gap other} hgap hother command next h := by
    rw [still_straightCubic_iff] at h ⊢
    intro c hc
    obtain ⟨hcurve, hopen⟩ := asCubic_eq_some.mp hc
    obtain ⟨hbent, hleads⟩ := h c (asCubic_eq_some.mpr
      ⟨hcurve, hopen.imp_right fun _ => ⟨gap, rfl, not_isCubic_of_isBreak hgap⟩⟩)
    refine ⟨hbent, fun hdrop => hleads ⟨hdrop.1, ?_⟩⟩
    have hflat := canFlatten_of_canDrop hdrop.2
    simpa only [canFlatten, canDrop, reflectsPen_of_isBreak hgap, Bool.and_true] using hflat

def Command.unmarked (command : Command) : Command := { command with closesSubpath := false }

lemma map_unmarked_markClosed (commands : List Command) :
    (markClosed commands).map Command.unmarked = commands.map Command.unmarked := by
  induction commands with
  | nil => rfl
  | cons command rest ih =>
    rw [markClosed, List.map_cons, List.map_cons, ih]
    split <;> rfl

lemma still_unmarked (h : Still straightCubic previous command next) :
    Still straightCubic (previous.map Command.unmarked) command.unmarked (next.map Command.unmarked) := by
  have hcurve : command.unmarked.asCubic (previous.map Command.unmarked) = command.asCubic previous := by
    cases previous <;> rfl
  have hflat : canFlatten command.unmarked (next.map Command.unmarked) = canFlatten command next := by
    cases next <;> rfl
  have hdrop : canDrop (previous.map Command.unmarked) command.unmarked (next.map Command.unmarked) =
      canDrop previous command next := by
    cases previous <;> cases next <;> rfl
  rw [still_straightCubic_iff] at h ⊢
  rwa [hcurve, hflat, hdrop]

lemma windows_unmarked (h : Windows (Still straightCubic) previous commands) :
    Windows (Still straightCubic) (previous.map Command.unmarked) (commands.map Command.unmarked) := by
  induction commands generalizing previous with
  | nil => trivial
  | cons command rest ih =>
    refine ⟨?_, ih h.2⟩
    rw [List.head?_map]
    exact still_unmarked h.1

lemma windows_straight (hopen : ∀ c ∈ commands, c.closesSubpath = false)
    (h : Rule.straightCubics.apply (markClosed commands) = markClosed commands) :
    Windows (Still straightCubic) none commands := by
  have hstill : Windows (Still straightCubic) none (markClosed commands) := by
    refine windows_of_sweep_eq not_merge_straightCubic (fun p c n hcase => ?_) h
    obtain ⟨hcubic, hline⟩ := kind_of_straightCubic hcase
    rw [hline] at hcubic
    cases hcubic
  have hunmarked := windows_unmarked hstill
  rw [map_unmarked_markClosed] at hunmarked
  have hsame : commands.map Command.unmarked = commands := by
    refine (List.map_congr_left fun c hc => ?_).trans (List.map_id' commands)
    rw [Command.unmarked, ← hopen c hc]
  rwa [hsame] at hunmarked

end Straight

/-- On a finished path with no straight curves the rules have nothing to do, nor on what its kept
spellings say. -/
theorem windows_spent {commands : List Command} (hfaithful : ∀ c ∈ commands, Faithful c)
    (hproper : ∀ c ∈ singleCloses (simplify commands), c.Proper)
    (hstraight : Windows (Still straightCubic) none (singleCloses (simplify commands))) :
    Windows Spent none (singleCloses (simplify commands)) := by
  have hcubics := windows_firm (windows_offAxis (windows_bent hfaithful))
  generalize hcurves : sweep orphanSmooth none (sweep axisCubic none (sweep straightCubic none commands)) =
    curves at hcubics
  obtain ⟨hcontracted, hmerged, hflat⟩ := windows_lines curves
  have hshort : Windows (Still contractSmooth) none (sweep lineToAxis none (sweep contractSmooth none curves)) := by
    rw [sweep_lineToAxis]
    exact windows_contractSmooth_flat (windows_contractSmooth _)
  have hfirm := Firm.mergeAxis (Firm.lineToAxis (Firm.contractSmooth hcubics)) hshort
  have hclean : simplify commands = Rule.cleanMoves.apply
      (sweep mergeAxis none (sweep lineToAxis none (sweep contractSmooth none curves))) := by
    rw [simplify_eq, hcurves]
  generalize sweep mergeAxis none (sweep lineToAxis none (sweep contractSmooth none curves)) = lines at *
  have hfresh : Fresh (singleCloses (simplify commands)) := by
    rw [hclean]
    exact (fresh_cleanMoves lines).singleCloses
  have hdrawn : ∀ {ok}, Drawn ok → Windows ok none lines →
      Windows ok none (singleCloses (simplify commands)) := by
    intro ok hok h
    rw [hclean]
    exact hok.singleCloses (hok.cleanMoves h)
  refine ((((hdrawn Firm.drawn hfirm).and hstraight).and ((hdrawn drawn_contracted hcontracted).and
    (hdrawn drawn_merged hmerged))).and ((hdrawn drawn_flat hflat).and (hfresh.and
      (windows_of_forall hproper)))).imp ?_
  rintro previous command next ⟨⟨⟨hfirm, hstraight⟩, hcontracted, hmerged⟩, hflat, hfresh, hproper⟩
  have hopen : ∀ {c}, command.curve? = some c → command.Free previous →
      ¬(c.straight ∧ canFlatten command next) ∧ ¬(c.still ∧ canDrop previous command next) := by
    rintro c hc (hk | hplain | hcame)
    · exact still_straightCubic_iff.mp hstraight c (asCubic_eq_some.mpr ⟨hc, Or.inl hk⟩)
    · exact still_straightCubic_iff.mp hstraight c (asCubic_eq_some.mpr ⟨hc, Or.inr hplain⟩)
    · exact hfirm.bent hcame c hc
  refine ⟨hproper, fun c hc hfree => (hopen hc hfree).1, fun c hc hfree => (hopen hc hfree).2,
    fun c hc hfree => hfirm.offAxis hfree c hc, hcontracted, hflat, hmerged, hfresh, fun hcubic hcame => ?_⟩
  obtain ⟨⟨b, hb, hplain⟩, rest, ho⟩ := hfirm.spelledOut hcubic hcame
  have hline := still_contractSmooth_iff.mp hcontracted zero zero rest ho hcubic rfl rfl
  rw [Option.mem_def.mp hb] at hline
  exact ⟨b, hb, hplain, hline⟩

end TersePath
