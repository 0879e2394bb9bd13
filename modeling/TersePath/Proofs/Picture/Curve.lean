import TersePath.Proofs.Picture.Reshape

namespace TersePath.Picture

open Mark (join joinAll)
open Hand (Agree Fits)

variable {hand : Hand} {previous next : Option Command} {command other : Command}

/-- A cubic that stays on its chord: between the ends its control points keep to the line, and on a
chord of no length nothing leaves the start. -/
def StaysOnChord (a p q b : Point) : Prop := (p = a ∧ q = a ∧ b = a) ∨ AlongChord a p q b

lemma StaysOnChord.seen {a p q b : Point} (h : StaysOnChord a p q b) :
    (Stroke.cubic a p q b).seen = (Stroke.line a b).seen := by
  rcases h with ⟨rfl, -, rfl⟩ | h
  · simp [Stroke.seen]
  · have hne : b ≠ a := h.1.symm
    simp [Stroke.seen, h, hne, h.1]

lemma cubicLead_of_orphan (hfit : Fits hand previous) (h : command.isOrphanSmooth previous) :
    hand.cubicLead = hand.point ∧ command.letter = ⟨.smoothCubic, false⟩ := by
  simp only [Command.isOrphanSmooth, Bool.and_eq_true, Option.any_eq_true, Bool.not_eq_true'] at h
  obtain ⟨hr, before, rfl, hb⟩ := h
  obtain ⟨start, rfl⟩ := hfit
  exact ⟨Hand.cubicLead_of_not_cubic hb, Command.isRelative_iff.mp hr⟩

lemma figure_of_asCubic {c : Cubic} (hfit : Fits hand previous)
    (h : command.asCubic previous = some c) :
    ∃ first, hand.figure command = .cubic first (hand.point + (c.x2.value, c.y2.value))
        (hand.point + (c.x.value, c.y.value)) ∧
      first.getD hand.cubicLead = hand.point + (c.x1.value, c.y1.value) ∧
      first.getD hand.cubicLead = first.getD hand.point := by
  obtain ⟨letter, operands, closes, text⟩ := command
  rw [Command.asCubic] at h
  split at h
  · next hr =>
    obtain rfl : letter = ⟨.cubic, false⟩ := Command.isRelative_iff.mp hr
    split at h
    · next hops =>
      obtain rfl : operands = _ := hops
      obtain rfl := Option.some.inj h
      exact ⟨_, rfl, rfl, rfl⟩
    · cases h
  · split at h
    · next ho =>
      obtain ⟨hlead, hl⟩ := cubicLead_of_orphan hfit ho
      obtain rfl : letter = ⟨.smoothCubic, false⟩ := hl
      split at h
      · next hops =>
        obtain rfl : operands = _ := hops
        obtain rfl := Option.some.inj h
        refine ⟨none, rfl, ?_, hlead⟩
        ext <;> simp [hlead]
      · cases h
    · cases h

lemma forall_of_asCubic (holds : Binary64 → Prop) {c : Cubic} (hzero : holds .zero)
    (hoperands : ∀ x ∈ command.operands, holds x) (h : command.asCubic previous = some c) :
    ∀ x ∈ c.operands, holds x := by
  intro x hx
  rw [Command.asCubic] at h
  split at h
  · split at h
    · next hops =>
      obtain rfl := Option.some.inj h
      exact hoperands x (hops ▸ hx)
    · cases h
  · split at h
    · split at h
      · next hops =>
        obtain rfl := Option.some.inj h
        simp only [Cubic.operands, List.mem_cons] at hx
        rcases hx with rfl | rfl | hx
        · exact hzero
        · exact hzero
        · exact hoperands x (hops ▸ by simpa using hx)
      · cases h
    · cases h

lemma finite_of_asCubic {c : Cubic} (hp : command.Proper) (h : command.asCubic previous = some c) :
    ∀ x ∈ c.operands, x.isFinite :=
  forall_of_asCubic (fun x => x.isFinite = true) rfl hp.2 h

lemma leads_of_canDrop (hprevious : ∀ c ∈ previous, c.Proper) (hcommand : command.Proper)
    (hfit : Fits hand previous) (h : canDrop previous command next) :
    ∀ kind, Command.follower? next = some kind → hand.lead kind = hand.point ∧
      (hand.after command).lead kind = (hand.after command).point := by
  intro kind hk
  rw [canDrop, hk, Option.all_some, Bool.and_eq_true] at h
  have hsome : ∀ c ∈ some command, c.Proper := fun c hc => Option.mem_some_iff.mp hc ▸ hcommand
  exact ⟨Hand.lead_of_reflectsPen hprevious hfit h.2, Hand.lead_of_reflectsPen hsome ⟨hand, rfl⟩ h.1⟩

lemma same_still {p : Point} (hstill : hand.figure command = .line p) (hpoint : p = hand.point)
    (hlead : ∀ kind, Command.follower? next = some kind → hand.lead kind = hand.point) :
    Same hand [] [command] next := by
  refine same_drop ?_ (Hand.agree_of_point ?_ hlead fun kind _ => ?_)
  · simp [Hand.sight, hstill, Hand.marks, Mark.seen, Stroke.seen, hpoint]
  · simp [Hand.after, hstill, Hand.follow, Place.after, Figure.target, hpoint]
  · exact Hand.lead_of_control_none (by simp only [Hand.after, hstill, Hand.follow, Hand.leaves]) kind

lemma fits_front (hand : Hand) (hhand : previous = none → hand.control = .none) :
    Fits (hand.afterAll previous.toList) previous :=
  Hand.fits_afterAll hhand

lemma add_zero_point (a : Point) : a + ((0 : ℚ), (0 : ℚ)) = a := add_zero a

lemma point_ne {a : Point} {x y : ℚ} (h : ¬(x = 0 ∧ y = 0)) : a ≠ a + (x, y) := by
  intro he
  have h1 := congrArg Prod.fst he
  have h2 := congrArg Prod.snd he
  simp only [Prod.fst_add, Prod.snd_add, left_eq_add] at h1 h2
  exact h ⟨h1, h2⟩

lemma alongChord_of_onChord (a : Point) {x2 y2 x y : Binary64} (hx : x.isFinite) (hy : y.isFinite)
    (hexact : ExactChord x2 y2 x y) (h : onChord x2 y2 x y) :
    AlongChord a a (a + (x2.value, y2.value)) (a + (x.value, y.value)) := by
  obtain ⟨hcross, hdot, hsquare⟩ := hexact
  rw [onChord] at h
  split at h
  · simp at h
  · next hzero =>
    split at h
    · simp at h
    · next hproduct =>
      simp only [Bool.and_eq_true, Binary64.isZero_iff hx, Binary64.isZero_iff hy] at hzero
      simp only [Bool.not_eq_true', Bool.not_eq_false, Binary64.isZero_iff hcross.1, hcross.2]
        at hproduct
      simp only [Bool.and_eq_true, Binary64.atMost_iff Binary64.isFinite_zero hdot.1,
        Binary64.atMost_iff hdot.1 hsquare.1, Binary64.value_zero, hdot.2, hsquare.2] at h
      refine ⟨point_ne hzero, ?_, ?_, ?_, ?_, ?_⟩
      · simp [cross]
      · simpa [cross] using hproduct
      · simp [dot]
      · simpa [dot] using h.1
      · simpa [dot] using h.2

lemma alongChord_of_controls_at_pen (a : Point) {x y : ℚ} (h : ¬(x = 0 ∧ y = 0)) :
    AlongChord a a a (a + (x, y)) := by
  refine ⟨point_ne h, ?_, ?_, ?_, ?_, ?_⟩
  · simp [cross]
  · simp [cross]
  · simp [dot]
  · simp [dot]
  · simpa [dot] using add_nonneg (mul_self_nonneg x) (mul_self_nonneg y)

lemma staysOnChord_of_controls_at_pen (a : Point) (x y : ℚ) : StaysOnChord a a a (a + (x, y)) := by
  by_cases hend : x = 0 ∧ y = 0
  · refine Or.inl ⟨rfl, rfl, ?_⟩
    rw [hend.1, hend.2, add_zero_point]
  · exact Or.inr (alongChord_of_controls_at_pen a hend)

lemma figure_line (hand : Hand) {x y : Binary64} (hl : command.letter = ⟨.line, false⟩)
    (ho : command.operands = [x, y]) :
    hand.figure command = .line (hand.point + (x.value, y.value)) := by
  rw [Hand.figure, Picture.figure, Command.kind, Command.absolute, hl, ho]
  rfl

/-- What a rule on cubics does to a command, given the hand that comes to it. -/
inductive Straightens (hand : Hand) (previous : Option Command) (command : Command)
    (next : Option Command) : Edit → Prop
  | keep : Straightens hand previous command next .keep
  | line {kind : Kind} {operands : List Binary64} {first : Option Point} {q p : Point}
      (hproper : (command.reshape kind operands).Proper) (hflat : canFlatten command next)
      (hother : hand.figure (command.reshape kind operands) = .line p)
      (hcommand : hand.figure command = .cubic first q p)
      (hlead : first.getD hand.cubicLead = first.getD hand.point)
      (hchord : StaysOnChord hand.point (first.getD hand.cubicLead) q p) :
      Straightens hand previous command next (.replace (command.reshape kind operands))
  | loop {first : Option Point} {q : Point} (hdrop : canDrop previous command next)
      (hcommand : hand.figure command = .cubic first q hand.point)
      (hfirst : first.getD hand.cubicLead = hand.point) (hloop : q ≠ hand.point) :
      Straightens hand previous command next .drop

lemma Straightens.sound {edit : Edit} (hprevious : ∀ c ∈ previous, c.Proper) (hcommand : command.Proper)
    (hhand : previous = none → hand.control = .none)
    (h : Straightens (hand.afterAll previous.toList) previous command next edit) :
    Sound hand previous command next edit := by
  cases h with
  | keep => exact sound_keep hprevious hcommand
  | line hproper hflat hother hfigure hlead hchord =>
    exact sound_replace hprevious hcommand (reshapes_flat hproper hflat hother hfigure hlead hchord.seen)
  | loop hdrop hfigure hfirst _ =>
    have hleads := leads_of_canDrop hprevious hcommand (fits_front hand hhand) hdrop
    refine sound_drop hprevious (same_drop ?_ (Hand.agree_of_point ?_
      (fun kind hk => (hleads kind hk).1) (fun kind hk => (hleads kind hk).2)))
    · simp [Hand.sight, hfigure, Hand.marks, hfirst, Mark.seen, Stroke.seen]
    · simp [Hand.after, hfigure, Hand.follow, Place.after, Figure.target]

lemma canFlatten_of_canDrop (h : canDrop previous command next) : canFlatten command next := by
  rw [canDrop, Option.all_eq_true] at h
  rw [canFlatten, Option.all_eq_true]
  exact fun kind hk => (Bool.and_eq_true_iff.mp (h kind hk)).1

/-- A cubic is dropped only if it cannot become a line, and so its second control point is not the pen. -/
theorem straightens_straightCubic (hcommand : command.Proper) (hfit : Fits hand previous)
    (hexact : ExactChordAt previous command next) :
    Straightens hand previous command next (Edit.straightCubic previous command next) := by
  rw [Edit.straightCubic]
  split
  · exact .keep
  · next c hc =>
    obtain ⟨first, hfigure, hfirst, hlead⟩ := figure_of_asCubic hfit hc
    have hfinite := finite_of_asCubic hcommand hc
    simp only [Cubic.operands, List.mem_cons, List.not_mem_nil, or_false, forall_eq_or_imp,
      forall_eq] at hfinite
    obtain ⟨-, -, hx2, hy2, hx, hy⟩ := hfinite
    split
    · next hstart =>
      have hexact := hexact c hc hstart
      rw [Bool.and_eq_true] at hstart
      rw [Binary64.value_of_isZero hstart.1, Binary64.value_of_isZero hstart.2,
        add_zero_point] at hfirst
      split
      · next hline =>
        rw [Bool.and_eq_true, Bool.or_eq_true, Bool.and_eq_true] at hline
        refine .line (proper_reshape rfl ?_) hline.2 (figure_line _ rfl rfl) hfigure hlead ?_
        · simp [hx, hy]
        · rw [hfirst]
          rcases hline.1 with hpen | hchord
          · rw [Binary64.value_of_isZero hpen.1, Binary64.value_of_isZero hpen.2, add_zero_point]
            exact staysOnChord_of_controls_at_pen _ _ _
          · exact Or.inr (alongChord_of_onChord _ hx hy hexact hchord)
      · next hline =>
        split
        · next hdrop =>
          simp only [Bool.and_eq_true] at hdrop
          rw [Binary64.value_of_isZero hdrop.1.1, Binary64.value_of_isZero hdrop.1.2,
            add_zero_point] at hfigure
          refine .loop hdrop.2 hfigure hfirst (point_ne fun hcontrol => hline ?_).symm
          rw [Bool.and_eq_true, Bool.or_eq_true, Bool.and_eq_true, Binary64.isZero_iff hx2,
            Binary64.isZero_iff hy2]
          exact ⟨Or.inl hcontrol, canFlatten_of_canDrop hdrop.2⟩
        · exact .keep
    · exact .keep

theorem sound_straightCubic : EditSound ExactChordAt Edit.straightCubic := by
  intro hand previous command next hhand hprevious hcommand hexact
  exact (straightens_straightCubic hcommand (fits_front hand hhand) hexact).sound hprevious hcommand hhand

lemma allNeighbours_four {holds : Binary64 → Binary64 → Bool} {a b c d : Binary64}
    (h : allNeighbours holds [a, b, c, d]) : holds a b ∧ holds b c ∧ holds c d := by
  simpa [allNeighbours] using h

lemma ordered_of_monotonic {a b c : Binary64} (ha : a.isFinite) (hb : b.isFinite) (hc : c.isFinite)
    (h : monotonic [.zero, a, b, c]) : (0 ≤ a.value ∧ a.value ≤ b.value ∧ b.value ≤ c.value) ∨
      (a.value ≤ 0 ∧ b.value ≤ a.value ∧ c.value ≤ b.value) := by
  rw [monotonic, Bool.or_eq_true] at h
  rcases h with h | h
  · obtain ⟨h1, h2, h3⟩ := allNeighbours_four h
    rw [Binary64.atMost_iff rfl ha, Binary64.value_zero] at h1
    rw [Binary64.atMost_iff ha hb] at h2
    rw [Binary64.atMost_iff hb hc] at h3
    exact Or.inl ⟨h1, h2, h3⟩
  · obtain ⟨h1, h2, h3⟩ := allNeighbours_four h
    rw [Binary64.atMost_iff ha rfl, Binary64.value_zero] at h1
    rw [Binary64.atMost_iff hb ha] at h2
    rw [Binary64.atMost_iff hc hb] at h3
    exact Or.inr ⟨h1, h2, h3⟩

lemma products_of_ordered {a b c : ℚ} (h : (0 ≤ a ∧ a ≤ b ∧ b ≤ c) ∨ (a ≤ 0 ∧ b ≤ a ∧ c ≤ b)) :
    0 ≤ a * c ∧ a * c ≤ b * c ∧ b * c ≤ c * c := by
  rcases h with ⟨h1, h2, h3⟩ | ⟨h1, h2, h3⟩
  · have h4 : 0 ≤ c := h1.trans (h2.trans h3)
    exact ⟨mul_nonneg h1 h4, mul_le_mul_of_nonneg_right h2 h4, mul_le_mul_of_nonneg_right h3 h4⟩
  · have h4 : c ≤ 0 := h3.trans (h2.trans h1)
    exact ⟨mul_nonneg_of_nonpos_of_nonpos h1 h4, mul_le_mul_of_nonpos_right h2 h4,
      mul_le_mul_of_nonpos_right h3 h4⟩

lemma staysOnChord_of_monotonic (p : Point) {u : Point} (hu : dot u u = 1) {a b c : Binary64}
    (ha : a.isFinite) (hb : b.isFinite) (hc : c.isFinite) (h : monotonic [.zero, a, b, c]) :
    StaysOnChord p (p + a.value • u) (p + b.value • u) (p + c.value • u) := by
  have hcross : ∀ s t : ℚ, cross (s • u) (t • u) = 0 := by
    intro s t
    simp only [cross, Prod.smul_fst, Prod.smul_snd, smul_eq_mul]
    ring
  have hdot : ∀ s t : ℚ, dot (s • u) (t • u) = s * t := by
    intro s t
    calc dot (s • u) (t • u) = s * t * dot u u := by
          simp only [dot, Prod.smul_fst, Prod.smul_snd, smul_eq_mul]
          ring
      _ = s * t := by rw [hu, mul_one]
  have hordered := ordered_of_monotonic ha hb hc h
  by_cases hend : c.value = 0
  · have hzero : a.value = 0 ∧ b.value = 0 := by
      rw [hend] at hordered
      rcases hordered with ⟨h1, h2, h3⟩ | ⟨h1, h2, h3⟩
      · exact ⟨by linarith, by linarith⟩
      · exact ⟨by linarith, by linarith⟩
    rw [hend, hzero.1, hzero.2, zero_smul, add_zero]
    exact Or.inl ⟨rfl, rfl, rfl⟩
  · obtain ⟨h1, h2, h3⟩ := products_of_ordered hordered
    refine Or.inr ⟨fun he => hend ?_, ?_, ?_, ?_, ?_, ?_⟩
    · have hsquare := hdot c.value c.value
      rw [left_eq_add.mp he] at hsquare
      simpa [dot] using hsquare
    · rw [add_sub_cancel_left, add_sub_cancel_left, hcross]
    · rw [add_sub_cancel_left, add_sub_cancel_left, hcross]
    · rwa [add_sub_cancel_left, add_sub_cancel_left, hdot]
    · rwa [add_sub_cancel_left, add_sub_cancel_left, add_sub_cancel_left, hdot, hdot]
    · rwa [add_sub_cancel_left, add_sub_cancel_left, hdot, hdot]

lemma horizontal_eq (x : ℚ) : ((x, 0) : Point) = x • (1, 0) := by simp

lemma vertical_eq (y : ℚ) : ((0, y) : Point) = y • (0, 1) := by simp

lemma figure_horizontal (hand : Hand) {x : Binary64} (hl : command.letter = ⟨.horizontal, false⟩)
    (ho : command.operands = [x]) : hand.figure command = .line (hand.point + (x.value, 0)) := by
  rw [Hand.figure, Picture.figure, Command.kind, Command.absolute, hl, ho]
  exact congrArg Figure.line (by ext <;> simp)

lemma figure_vertical (hand : Hand) {y : Binary64} (hl : command.letter = ⟨.vertical, false⟩)
    (ho : command.operands = [y]) : hand.figure command = .line (hand.point + (0, y.value)) := by
  rw [Hand.figure, Picture.figure, Command.kind, Command.absolute, hl, ho]
  exact congrArg Figure.line (by ext <;> simp)

theorem straightens_axisCubic (hcommand : command.Proper) (hfit : Fits hand previous) :
    Straightens hand previous command next (Edit.axisCubic previous command next) := by
  rw [Edit.axisCubic]
  split
  · exact .keep
  · next c hc =>
    obtain ⟨first, hfigure, hfirst, hlead⟩ := figure_of_asCubic hfit hc
    have hfinite := finite_of_asCubic hcommand hc
    simp only [Cubic.operands, List.mem_cons, List.not_mem_nil, or_false, forall_eq_or_imp,
      forall_eq] at hfinite
    obtain ⟨hx1, hy1, hx2, hy2, hx, hy⟩ := hfinite
    split
    · exact .keep
    · next hflat =>
      rw [Bool.not_eq_true', Bool.not_eq_false] at hflat
      simp only
      split
      · next hvertical =>
        simp only [List.all_cons, List.all_nil, Bool.and_true, Bool.and_eq_true] at hvertical
        obtain ⟨⟨-, h1, h2, h3⟩, hmono⟩ := hvertical
        rw [Binary64.value_of_isZero h2, Binary64.value_of_isZero h3] at hfigure
        rw [Binary64.value_of_isZero h1] at hfirst
        refine .line (proper_reshape rfl (by simpa using hy)) hflat (figure_vertical _ rfl rfl) hfigure
          hlead ?_
        rw [hfirst, vertical_eq c.y1.value, vertical_eq c.y2.value, vertical_eq c.y.value]
        exact staysOnChord_of_monotonic _ (u := (0, 1)) (by simp [dot]) hy1 hy2 hy hmono
      · split
        · next hhorizontal =>
          simp only [List.all_cons, List.all_nil, Bool.and_true, Bool.and_eq_true] at hhorizontal
          obtain ⟨⟨-, h1, h2, h3⟩, hmono⟩ := hhorizontal
          rw [Binary64.value_of_isZero h2, Binary64.value_of_isZero h3] at hfigure
          rw [Binary64.value_of_isZero h1] at hfirst
          refine .line (proper_reshape rfl (by simpa using hx)) hflat (figure_horizontal _ rfl rfl)
            hfigure hlead ?_
          rw [hfirst, horizontal_eq c.x1.value, horizontal_eq c.x2.value, horizontal_eq c.x.value]
          exact staysOnChord_of_monotonic _ (u := (1, 0)) (by simp [dot]) hx1 hx2 hx hmono
        · exact .keep

theorem sound_axisCubic : EditSound (fun _ _ _ => True) Edit.axisCubic := by
  intro hand previous command next hhand hprevious hcommand _
  exact (straightens_axisCubic hcommand (fits_front hand hhand)).sound hprevious hcommand hhand

lemma figure_cubic (hand : Hand) {x1 y1 x2 y2 x y : Binary64} (hl : command.letter = ⟨.cubic, false⟩)
    (ho : command.operands = [x1, y1, x2, y2, x, y]) :
    hand.figure command = .cubic (some (hand.point + (x1.value, y1.value)))
      (hand.point + (x2.value, y2.value)) (hand.point + (x.value, y.value)) := by
  rw [Hand.figure, Picture.figure, Command.kind, Command.absolute, hl, ho]
  rfl

lemma figure_smoothCubic (hand : Hand) {x2 y2 x y : Binary64} (hl : command.letter = ⟨.smoothCubic, false⟩)
    (ho : command.operands = [x2, y2, x, y]) :
    hand.figure command = .cubic none (hand.point + (x2.value, y2.value))
      (hand.point + (x.value, y.value)) := by
  rw [Hand.figure, Picture.figure, Command.kind, Command.absolute, hl, ho]
  rfl

theorem sound_orphanSmooth : EditSound (fun _ _ _ => True) Edit.orphanSmooth := by
  intro hand previous command next hhand hprevious hcommand _
  rw [Edit.orphanSmooth]
  split
  · next horphan =>
    obtain ⟨hlead, hl⟩ := cubicLead_of_orphan (fits_front hand hhand) horphan
    obtain ⟨hops, -, -⟩ := Command.exists_of_isRelative hcommand (Command.isRelative_iff.mpr hl)
    generalize ho : command.operands = operands at hops
    cases hops with
    | smoothCubic x2 y2 x y =>
      have hfinite := hcommand.2
      rw [ho] at hfinite
      refine sound_replace hprevious hcommand (reshapes_curved (proper_reshape rfl ?_)
        (figure_cubic _ rfl rfl) (figure_smoothCubic _ hl ho) rfl hlead ?_)
      · intro v hv
        rw [List.mem_cons, List.mem_cons] at hv
        rcases hv with rfl | rfl | hv
        · rfl
        · rfl
        · exact hfinite v hv
      · rw [Binary64.value_zero]
        exact add_zero_point _
  · exact sound_keep hprevious hcommand

lemma lead_of_relativeLine (hfit : Fits hand previous) (h : previous.any Edit.isRelativeLine) :
    hand.cubicLead = hand.point := by
  simp only [Option.any_eq_true] at h
  obtain ⟨before, rfl, hb⟩ := h
  obtain ⟨start, rfl⟩ := hfit
  refine Hand.cubicLead_of_not_cubic ?_
  simp only [Edit.isRelativeLine, Bool.or_eq_true, Command.isRelative_iff] at hb
  rcases hb with (hl | hl) | hl <;> rw [Command.kind, hl] <;> rfl

theorem sound_contractSmooth : EditSound (fun _ _ _ => True) Edit.contractSmooth := by
  intro hand previous command next hhand hprevious hcommand _
  rw [Edit.contractSmooth]
  split
  · next x1 y1 rest hrest =>
    split
    · next hcond =>
      simp only [Bool.and_eq_true] at hcond
      obtain ⟨⟨⟨hrelative, hx1⟩, hy1⟩, hline⟩ := hcond
      have hl := Command.isRelative_iff.mp hrelative
      obtain ⟨hops, -, -⟩ := Command.exists_of_isRelative hcommand hrelative
      have hfinite := hcommand.2
      rw [hrest] at hops hfinite
      cases hops with
      | cubic _ _ x2 y2 x y =>
        have hpen := figure_cubic (hand.afterAll previous.toList) hl hrest
        rw [Binary64.value_of_isZero hx1, Binary64.value_of_isZero hy1, add_zero_point] at hpen
        refine sound_replace hprevious hcommand (reshapes_curved (proper_reshape rfl ?_)
          (figure_smoothCubic _ rfl rfl) hpen rfl rfl (lead_of_relativeLine (fits_front hand hhand) hline))
        exact fun v hv => hfinite v (List.mem_cons_of_mem _ (List.mem_cons_of_mem _ hv))
    · exact sound_keep hprevious hcommand
  · exact sound_keep hprevious hcommand

end TersePath.Picture
