import TersePath.Proofs.Path.Confined
import TersePath.Proofs.Picture.Curve

namespace TersePath.Picture

open Mark (join joinAll)
open Hand (Agree Fits)

variable {hand : Hand} {previous next : Option Command} {command other : Command}

theorem sound_lineToAxis : EditSound (fun _ _ _ => True) Edit.lineToAxis := by
  intro hand previous command next hhand hprevious hcommand _
  rw [Edit.lineToAxis]
  split
  · next x y ho =>
    have hfinite := hcommand.2
    rw [ho] at hfinite
    split
    · exact sound_keep hprevious hcommand
    · next hrelative =>
      rw [Bool.not_eq_true', Bool.not_eq_false, Command.isRelative_iff] at hrelative
      split
      · next hy =>
        have hline := figure_line (hand.afterAll previous.toList) hrelative ho
        rw [Binary64.value_of_isZero hy] at hline
        refine sound_replace hprevious hcommand
          (reshapes_line (proper_reshape rfl ?_) (figure_horizontal _ rfl rfl) hline)
        exact fun v hv => hfinite v (by simp_all)
      · split
        · next hx =>
          have hline := figure_line (hand.afterAll previous.toList) hrelative ho
          rw [Binary64.value_of_isZero hx] at hline
          refine sound_replace hprevious hcommand
            (reshapes_line (proper_reshape rfl ?_) (figure_vertical _ rfl rfl) hline)
          exact fun v hv => hfinite v (by simp_all)
        · exact sound_keep hprevious hcommand
  · exact sound_keep hprevious hcommand

def IsAxis (u : Point) : Prop := u = (1, 0) ∨ u = (0, 1)

lemma figure_axis (h : Edit.isRelativeAxis command) :
    ∃ u : Point, IsAxis u ∧ ∀ hand : Hand, ∀ other : Command, ∀ x,
      other.letter = command.letter → other.operands = [x] →
        hand.figure other = .line (hand.point + x.value • u) := by
  rw [Edit.isRelativeAxis, Bool.or_eq_true, Command.isRelative_iff, Command.isRelative_iff] at h
  rcases h with h | h
  · refine ⟨(1, 0), Or.inl rfl, fun hand other x hl ho => ?_⟩
    rw [figure_horizontal _ (hl.trans h) ho, horizontal_eq]
  · refine ⟨(0, 1), Or.inr rfl, fun hand other x hl ho => ?_⟩
    rw [figure_vertical _ (hl.trans h) ho, vertical_eq]

lemma operands_of_isRelativeAxis (hp : command.Proper) (h : Edit.isRelativeAxis command) :
    ∃ x, command.operands = [x] ∧ x.isFinite := by
  have hlength : command.operands.length = 1 := by
    rw [Edit.isRelativeAxis, Bool.or_eq_true, Command.isRelative_iff, Command.isRelative_iff] at h
    rw [hp.1, Command.kind]
    rcases h with h | h <;> rw [h] <;> rfl
  obtain ⟨x, hx⟩ := List.length_eq_one_iff.mp hlength
  exact ⟨x, hx, hp.2 x (by simp [hx])⟩

lemma figure_of_isZeroAxis (hand : Hand) (hp : command.Proper) (h : Edit.isZeroAxis command) :
    hand.figure command = .line hand.point := by
  rw [Edit.isZeroAxis, Bool.and_eq_true] at h
  obtain ⟨u, -, hu⟩ := figure_axis h.1
  obtain ⟨x, ho, -⟩ := operands_of_isRelativeAxis hp h.1
  have hx : x.isZero := by simpa [ho] using h.2
  rw [hu hand command x rfl ho, Binary64.value_of_isZero hx, zero_smul, add_zero]

lemma oneWay_of_axis (p : Point) {u : Point} (hu : IsAxis u) {a b : ℚ} (h : 0 < a * b) :
    OneWay p (p + a • u) (p + a • u + b • u) := by
  rcases hu with rfl | rfl
  · left
    simpa using h
  · right
    simpa using h

lemma seen_line_self (p : Point) : (Mark.stroke (.line p p)).seen = none := by
  simp [Mark.seen, Stroke.seen]

lemma joinAll_steps (p : Point) {u : Point} (hu : IsAxis u) {a b : ℚ} (h : 0 ≤ a * b)
    (rest : List Mark) :
    joinAll ([Mark.stroke (.line p (p + a • u)), .stroke (.line (p + a • u) (p + a • u + b • u))].filterMap
        Mark.seen) rest =
      joinAll ([Mark.stroke (.line p (p + a • u + b • u))].filterMap Mark.seen) rest := by
  have hne : u ≠ 0 := by rcases hu with rfl | rfl <;> simp
  by_cases ha : a = 0
  · simp only [ha, zero_smul, add_zero, List.filterMap_cons, seen_line_self]
  by_cases hb : b = 0
  · simp only [hb, zero_smul, add_zero, List.filterMap_cons, List.filterMap_nil, seen_line_self]
  have hab : 0 < a * b := lt_of_le_of_ne h (mul_ne_zero ha hb).symm
  have hsum : a + b ≠ 0 := by
    intro hz
    rw [eq_neg_of_add_eq_zero_right hz] at hab
    nlinarith [mul_self_nonneg a]
  have hall : p + a • u + b • u ≠ p := by
    rw [add_assoc, ← add_smul]
    simp [hsum, hne]
  simp only [List.filterMap_cons, List.filterMap_nil, Mark.seen, Stroke.seen, left_eq_add,
    smul_eq_zero, ha, hb, hne, or_self, if_false, hall.symm, Option.map_some, joinAll,
    List.foldr_cons, List.foldr_nil]
  exact join_joined (joined_line (oneWay_of_axis p hu hab)) rest

lemma sums_of_exactMergeAt {edit : Option Command → Command → Option Command → Edit}
    {before merged : Command} (h : ExactMergeAt edit (some before) command next)
    (hedit : edit (some before) command next = .merge merged) (hrelative : command.absolute = false) :
    ExactSums before command := by
  simp only [ExactMergeAt, hedit] at h
  exact h hrelative

lemma after_line {p : Point} (h : hand.figure command = .line p) :
    hand.after command = ⟨⟨p, hand.start⟩, .none⟩ := by
  simp only [Hand.after, h, Hand.follow, Place.after, Figure.target, Hand.leaves]

lemma same_steps {before merged : Command} {u : Point} (hu : IsAxis u) {a b : ℚ} (h : 0 ≤ a * b)
    (hbefore : hand.figure before = .line (hand.point + a • u))
    (hcommand : (hand.after before).figure command = .line (hand.point + a • u + b • u))
    (hmerged : hand.figure merged = .line (hand.point + a • u + b • u)) :
    Same hand [merged] [before, command] next := by
  refine ⟨fun rest => ?_, ?_⟩
  · have hpoint : (hand.after before).point = hand.point + a • u := by rw [after_line hbefore]
    calc joinAll (hand.sights [merged]).flatten rest
        = joinAll ([Mark.stroke (.line hand.point (hand.point + a • u + b • u))].filterMap
            Mark.seen) rest := by
          simp only [Hand.sights, Hand.sight, hmerged, Hand.marks, List.flatten_cons,
            List.flatten_nil, List.append_nil]
      _ = joinAll ([Mark.stroke (.line hand.point (hand.point + a • u)),
            .stroke (.line (hand.point + a • u) (hand.point + a • u + b • u))].filterMap
              Mark.seen) rest := (joinAll_steps hand.point hu h rest).symm
      _ = joinAll (hand.sights [before, command]).flatten rest := by
          simp only [Hand.sights, Hand.sight, hbefore, hcommand, Hand.marks, List.flatten_cons,
            List.flatten_nil, List.append_nil, hpoint, ← List.filterMap_append, List.cons_append,
            List.nil_append]
  · have hend : hand.afterAll [merged] = hand.afterAll [before, command] := by
      rw [Hand.afterAll_cons, Hand.afterAll_cons, Hand.afterAll_cons, after_line hcommand,
        after_line hbefore, after_line hmerged]
    exact hend ▸ Agree.refl _ _

theorem sound_mergeAxis : EditSound (ExactMergeAt Edit.mergeAxis) Edit.mergeAxis := by
  intro hand previous command next hhand hprevious hcommand hexact
  obtain hkeep | ⟨hdrop, hzero, hguard⟩ | ⟨before, a, b, rfl, hbefore, ho, haxis, hletter, hsame, hmerge⟩
    := mergeAxis_cases previous command next
  · rw [hkeep]
    exact sound_keep hprevious hcommand
  · rw [hdrop]
    exact sound_drop hprevious (same_still (figure_of_isZeroAxis _ hcommand hzero) rfl
      (lead_of_follower hprevious (fits_front hand hhand) hguard))
  · rw [hmerge]
    obtain ⟨u, hu, hfigure⟩ := figure_axis haxis
    have hsum : (a + b).Is (a.value + b.value) := by
      have hsums := sums_of_exactMergeAt hexact hmerge (absolute_of_isRelativeAxis haxis)
      rw [ExactSums, hbefore, ho] at hsums
      simpa using hsums
    have hdirection : 0 ≤ a.value * b.value := by
      have ha := (hprevious before rfl).2 a (by simp [hbefore])
      have hb := hcommand.2 b (by simp [ho])
      exact (Binary64.sameDirection_iff ha hb).mp hsame
    have hfirst := hfigure hand before a hletter hbefore
    refine sound_merge (same_steps hu hdirection hfirst ?_ ?_) ?_ ⟨rfl, rfl⟩
    · rw [hfigure _ command b rfl ho, after_line hfirst]
    · rw [hfigure hand { letter := command.letter, operands := [a + b] } (a + b) rfl rfl, hsum.2,
        add_smul, ← add_assoc]
    · have hlength := hcommand.1
      rw [Command.WellFormed, ho] at hlength
      exact ⟨hlength, by simpa using hsum.1⟩

theorem sound_zeroAxis : EditSound (fun _ _ _ => True) Edit.zeroAxis := by
  intro hand previous command next hhand hprevious hcommand _
  rw [Edit.zeroAxis]
  split
  · next hdrop =>
    rw [Bool.and_eq_true] at hdrop
    have hleads := leads_of_canDrop hprevious hcommand (fits_front hand hhand) hdrop.2
    exact sound_drop hprevious (same_still (figure_of_isZeroAxis _ hcommand hdrop.1) rfl
      fun kind hk => (hleads kind hk).1)
  · exact sound_keep hprevious hcommand

lemma operands_of_move (hp : command.Proper) (hk : command.kind = .move) :
    ∃ x y, command.operands = [x, y] := by
  have hlength := hp.1
  rw [Command.WellFormed, hk] at hlength
  exact exists_of_length_two hlength

lemma figure_move (hand : Hand) {x y : Binary64} (hk : command.kind = .move) (ho : command.operands = [x, y]) :
    hand.figure command =
      .move (hand.base command.absolute + (x.value, y.value)) := by
  rw [Hand.figure, Picture.figure, hk, ho]

lemma after_move {p : Point} (h : hand.figure command = .move p) :
    hand.after command = ⟨⟨p, p⟩, .none⟩ := by
  simp only [Hand.after, h, Hand.follow, Place.after, Hand.leaves]

lemma sight_move {p : Point} (h : hand.figure command = .move p) : hand.sight command = [.gap] := by
  rw [Hand.sight, h]
  rfl

lemma same_gap {before : Command} (hbefore : hand.sight before = [.gap])
    (hcommand : (hand.after before).sight command = [.gap]) (hother : hand.sight other = [.gap])
    (hafter : hand.after other = (hand.after before).after command) :
    Same hand [other] [before, command] next := by
  refine ⟨fun rest => ?_, ?_⟩
  · simp only [Hand.sights, hbefore, hcommand, hother]
    exact (join_gap_gap rest).symm
  · rw [Hand.afterAll_cons, Hand.afterAll_cons, Hand.afterAll_cons, hafter]
    exact Agree.refl _ _

theorem sound_closeAfterMove : EditSound (fun _ _ _ => True) Edit.closeAfterMove := by
  intro hand previous command next hhand hprevious hcommand _
  rw [Edit.closeAfterMove]
  split
  · next hcond =>
    simp only [Bool.and_eq_true, beq_iff_eq, Option.any_eq_true] at hcond
    obtain ⟨hclose, before, rfl, hmove⟩ := hcond
    obtain ⟨x, y, ho⟩ := operands_of_move (hprevious before rfl) hmove
    have hfigure := figure_move hand hmove ho
    have hafter := after_move hfigure
    refine ⟨same_gap (sight_move hfigure) (sight_close_still hclose ?_)
      (sight_move hfigure) ?_, fun c hc => ?_, fun _ hkeeps => (keepsAll_append.mp hkeeps).1⟩
    · rw [hafter]
    · rw [after_close _ hclose, hafter]
    · exact hprevious c (Option.mem_toList.mp hc)
  · exact sound_keep hprevious hcommand

theorem sound_mergeMoves : EditSound (ExactMergeAt Edit.mergeMoves) Edit.mergeMoves := by
  intro hand previous command next hhand hprevious hcommand hexact
  obtain hkeep | ⟨before, rfl, hk, hkbefore, hmerge⟩ := mergeMoves_cases previous command next
  · rw [hkeep]
    exact sound_keep hprevious hcommand
  have hproper : before.Proper := hprevious before rfl
  obtain ⟨x, y, ho⟩ := operands_of_move hcommand hk
  obtain ⟨a, b, hobefore⟩ := operands_of_move hproper hkbefore
  have hfirst := figure_move hand hkbefore hobefore
  have hsecond := figure_move (hand.after before) hk ho
  obtain ⟨habsolute, hmerge⟩ | ⟨hrelative, hmerge⟩ := hmerge
  · rw [hmerge]
    have hother : hand.figure { letter := command.letter, operands := command.operands } =
        .move (hand.base command.absolute + (x.value, y.value)) := figure_move hand hk ho
    refine sound_merge (same_gap (sight_move hfirst) (sight_move hsecond) (sight_move hother) ?_)
      hcommand ⟨rfl, rfl⟩
    rw [after_move hother, after_move hsecond, habsolute, Place.base_absolute, Place.base_absolute]
  · have hsums := sums_of_exactMergeAt hexact hmerge hrelative
    rw [ExactSums, hobefore, ho] at hsums
    obtain ⟨hx, hy⟩ : (a + x).Is (a.value + x.value) ∧ (b + y).Is (b.value + y.value) := by
      simpa using hsums
    rw [hmerge, hobefore, ho, List.zipWith_cons_cons, List.zipWith_cons_cons, List.zipWith_nil_left]
    have hother : hand.figure { letter := before.letter, operands := [a + x, b + y] } =
        .move (hand.base before.absolute + ((a + x).value, (b + y).value)) :=
      figure_move hand hkbefore rfl
    refine sound_merge (same_gap (sight_move hfirst) (sight_move hsecond) (sight_move hother) ?_) ?_
      ⟨rfl, rfl⟩
    · rw [after_move hother, after_move hsecond, after_move hfirst, hrelative, hx.2, hy.2]
      have hsum : ∀ p : Point, p + (a.value + x.value, b.value + y.value) =
          p + (a.value, b.value) + (x.value, y.value) := by
        intro p
        ext <;> simp [add_assoc]
      simp only [hsum, Place.base_relative]
    · refine ⟨?_, by simpa using ⟨hx.1, hy.1⟩⟩
      exact (congrArg Kind.arity hkbefore).symm

lemma view_trimMoves (hand : Hand) (commands : List Command) (hproper : ∀ c ∈ commands, c.Proper) :
    hand.view (trimMoves commands) = hand.view commands ∧ (∀ c ∈ trimMoves commands, c ∈ commands) ∧
      ∀ spaced, KeepsAll spaced hand commands → KeepsAll spaced hand (trimMoves commands) := by
  induction commands generalizing hand with
  | nil => exact ⟨rfl, fun c hc => hc, fun _ hkeeps => hkeeps⟩
  | cons command rest ih =>
    obtain ⟨hview, hmem, hkeeps⟩ :=
      ih (hand.after command) fun c hc => hproper c (List.mem_cons_of_mem _ hc)
    rw [trimMoves_cons]
    split
    · next hcond =>
      simp only [Bool.and_eq_true, beq_iff_eq, List.isEmpty_iff] at hcond
      obtain ⟨x, y, ho⟩ := operands_of_move (hproper command (by simp)) hcond.1
      refine ⟨?_, by simp, fun _ _ => trivial⟩
      rw [Hand.view_cons, ← hview, hcond.2, sight_move (figure_move hand hcond.1 ho)]
      rfl
    · refine ⟨by rw [Hand.view_cons, Hand.view_cons, hview], fun c hc => ?_,
        fun spaced hall => ⟨hall.1, hkeeps spaced hall.2⟩⟩
      rcases List.mem_cons.mp hc with rfl | hc
      · exact List.mem_cons_self
      · exact List.mem_cons_of_mem _ (hmem c hc)

end TersePath.Picture
