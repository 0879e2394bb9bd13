import Mathlib.Analysis.Convex.Segment
import Mathlib.Tactic.Linarith
import Mathlib.Topology.Algebra.Polynomial
import Mathlib.Topology.Order.IntermediateValue
import TersePath.Proofs.Path.Edits
import TersePath.Proofs.Path.Head
import TersePath.Proofs.Picture.Simplify

/-! The ink of cubics, point for point. A cubic that a rule makes a line covers that line and nothing
else. One that a rule takes away runs from its start towards its second control point and back, and its
ink is lost. -/

namespace TersePath

namespace Picture

open Hand (Agree Fits)

def real (p : Point) : ℝ × ℝ := (p.1, p.2)

def bezier (a p q b : ℝ × ℝ) (t : ℝ) : ℝ × ℝ :=
  (1 - t) ^ 3 • a + (3 * (1 - t) ^ 2 * t) • p + (3 * (1 - t) * t ^ 2) • q + t ^ 3 • b

def ink (a p q b : Point) : Set (ℝ × ℝ) :=
  bezier (real a) (real p) (real q) (real b) '' Set.Icc 0 1

/-- How far along a line a cubic has come at time `t` if its points lie on that line. -/
def progress (r s u t : ℝ) : ℝ := 3 * (1 - t) ^ 2 * t * r + 3 * (1 - t) * t ^ 2 * s + t ^ 3 * u

section Ink

variable {a p q b v : Point}

lemma real_along (a v : Point) (s : ℚ) : real (a + s • v) = real a + (s : ℝ) • real v := by
  ext <;> simp [real]

lemma bezier_along (a v : ℝ × ℝ) (r s u t : ℝ) :
    bezier a (a + r • v) (a + s • v) (a + u • v) t = a + progress r s u t • v := by
  ext <;> simp only [bezier, progress, Prod.fst_add, Prod.snd_add, Prod.smul_fst, Prod.smul_snd,
    smul_eq_mul] <;> ring

lemma subset_image_progress {r s u m t : ℝ} (ht : t ∈ Set.Icc 0 1) (hend : progress r s u t = m) :
    Set.Icc 0 m ⊆ progress r s u '' Set.Icc 0 1 := by
  have hcontinuous : ContinuousOn (progress r s u) (Set.Icc 0 t) := by
    unfold progress
    fun_prop
  have hstart : progress r s u 0 = 0 := by simp [progress]
  have hvalues := intermediate_value_Icc ht.1 hcontinuous
  rw [hstart, hend] at hvalues
  exact hvalues.trans (Set.image_mono (Set.Icc_subset_Icc_right ht.2))

lemma image_progress_chord {r s : ℝ} (hr : r ∈ Set.Icc 0 1) (hs : s ∈ Set.Icc 0 1) :
    progress r s 1 '' Set.Icc 0 1 = Set.Icc 0 1 := by
  refine Set.Subset.antisymm ?_ (subset_image_progress (t := 1) (by simp) (by simp [progress]))
  rintro _ ⟨t, ⟨ht0, ht1⟩, rfl⟩
  have h1 : 0 ≤ 3 * (1 - t) ^ 2 * t := mul_nonneg (mul_nonneg zero_le_three (sq_nonneg _)) ht0
  have h2 : 0 ≤ 3 * (1 - t) * t ^ 2 :=
    mul_nonneg (mul_nonneg zero_le_three (sub_nonneg.mpr ht1)) (sq_nonneg t)
  have h3 : 0 ≤ t ^ 3 := pow_nonneg ht0 3
  have h4 : 0 ≤ (1 - t) ^ 3 := pow_nonneg (sub_nonneg.mpr ht1) 3
  constructor
  · exact add_nonneg (add_nonneg (mul_nonneg h1 hr.1) (mul_nonneg h2 hs.1)) (mul_nonneg h3 zero_le_one)
  · calc progress r s 1 t ≤ 3 * (1 - t) ^ 2 * t * 1 + 3 * (1 - t) * t ^ 2 * 1 + t ^ 3 * 1 :=
          add_le_add (add_le_add (mul_le_mul_of_nonneg_left hr.2 h1) (mul_le_mul_of_nonneg_left hs.2 h2))
            le_rfl
      _ = 1 - (1 - t) ^ 3 := by ring
      _ ≤ 1 := sub_le_self 1 h4

/-- A cubic that only its second control point draws away turns back four ninths of the way there. -/
lemma image_progress_loop : progress 0 1 0 '' Set.Icc 0 1 = Set.Icc 0 (4 / 9) := by
  refine Set.Subset.antisymm ?_ (subset_image_progress (t := 2 / 3) ?_ ?_)
  · rintro _ ⟨t, ⟨ht0, ht1⟩, rfl⟩
    have hturn : 4 / 9 - progress 0 1 0 t = 3 * (t - 2 / 3) ^ 2 * (t + 1 / 3) := by
      rw [progress]
      ring
    have hbefore : 0 ≤ 3 * (t - 2 / 3) ^ 2 * (t + 1 / 3) :=
      mul_nonneg (mul_nonneg zero_le_three (sq_nonneg _)) (by linarith)
    have hstart : 0 ≤ 3 * (1 - t) * t ^ 2 :=
      mul_nonneg (mul_nonneg zero_le_three (sub_nonneg.mpr ht1)) (sq_nonneg t)
    constructor
    · simpa [progress] using hstart
    · linarith
  · constructor <;> norm_num
  · norm_num [progress]

lemma ink_along {r s u m : ℚ} (hm : 0 ≤ m)
    (himage : progress r s u '' Set.Icc 0 1 = Set.Icc (0 : ℝ) m) :
    ink a (a + r • v) (a + s • v) (a + u • v) = segment ℝ (real a) (real (a + m • v)) := by
  have hscale : (fun t : ℝ => m * t) '' Set.Icc 0 1 = Set.Icc (0 : ℝ) m := by
    rw [Set.image_mul_left_Icc (Rat.cast_nonneg.mpr hm) zero_le_one, mul_zero, mul_one]
  calc ink a (a + r • v) (a + s • v) (a + u • v)
      = (fun x : ℝ => real a + x • real v) '' (progress r s u '' Set.Icc 0 1) := by
        rw [ink, real_along, real_along, real_along, Set.image_image]
        exact Set.image_congr fun t _ => bezier_along _ _ _ _ _ _
    _ = (fun t : ℝ => real a + (m * t) • real v) '' Set.Icc 0 1 := by
        rw [himage, ← hscale, Set.image_image]
    _ = segment ℝ (real a) (real (a + m • v)) := by
        rw [segment_eq_image', real_along, add_sub_cancel_left]
        exact Set.image_congr fun t _ => by rw [smul_smul, mul_comm]

lemma eq_smul_of_cross {u v : Point} (hv : 0 < dot v v) (h : cross u v = 0) :
    u = (dot u v / dot v v) • v := by
  rw [div_eq_inv_mul, mul_smul, eq_inv_smul_iff₀ hv.ne']
  rw [cross, sub_eq_zero] at h
  ext <;> simp only [dot, Prod.smul_fst, Prod.smul_snd, smul_eq_mul]
  · linear_combination v.2 * h
  · linear_combination -v.1 * h

lemma dot_self_pos (h : v ≠ 0) : 0 < dot v v := by
  have hne : v.1 ≠ 0 ∨ v.2 ≠ 0 := by
    by_contra hzero
    rw [not_or, not_not, not_not] at hzero
    exact h (Prod.ext hzero.1 hzero.2)
  rcases hne with hne | hne
  · exact add_pos_of_pos_of_nonneg (mul_self_pos.mpr hne) (mul_self_nonneg _)
  · exact add_pos_of_nonneg_of_pos (mul_self_nonneg _) (mul_self_pos.mpr hne)

/-- A cubic that stays on its chord covers all of it. -/
theorem StaysOnChord.ink_eq (h : StaysOnChord a p q b) : ink a p q b = segment ℝ (real a) (real b) := by
  have hchord : ∀ {r s : ℚ} (v : Point), r ∈ Set.Icc 0 1 → s ∈ Set.Icc 0 1 →
      ink a (a + r • v) (a + s • v) (a + (1 : ℚ) • v) = segment ℝ (real a) (real (a + (1 : ℚ) • v)) := by
    intro r s v hr hs
    refine ink_along zero_le_one ?_
    rw [Rat.cast_one]
    exact image_progress_chord ⟨by exact_mod_cast hr.1, by exact_mod_cast hr.2⟩
      ⟨by exact_mod_cast hs.1, by exact_mod_cast hs.2⟩
  rcases h with ⟨rfl, rfl, rfl⟩ | ⟨hne, hp, hq, hp0, hpq, hq1⟩
  · simpa using hchord (r := 0) (s := 0) 0 (by simp) (by simp)
  · have hpos := dot_self_pos (sub_ne_zero.mpr hne.symm)
    have hends := hchord (b - a) ⟨div_nonneg hp0 hpos.le, (div_le_one hpos).mpr (hpq.trans hq1)⟩
      ⟨div_nonneg (hp0.trans hpq) hpos.le, (div_le_one hpos).mpr hq1⟩
    rwa [← eq_smul_of_cross hpos hp, ← eq_smul_of_cross hpos hq, one_smul, add_sub_cancel,
      add_sub_cancel, add_sub_cancel] at hends

theorem ink_loop (a q : Point) :
    ink a a q a = segment ℝ (real a) (real (a + (4 / 9 : ℚ) • (q - a))) := by
  have hline := ink_along (a := a) (v := q - a) (r := 0) (s := 1) (u := 0) (m := 4 / 9) (by norm_num)
    (by simpa using image_progress_loop)
  simpa using hline

end Ink

/-- Marks and what takes their place. Whatever becomes a line has the ink of that line, and whatever goes
away is a loop. -/
inductive Traced : List Mark → List Mark → Prop
  | same (marks : List Mark) : Traced marks marks
  | line {a p q b : Point} (hink : ink a p q b = segment ℝ (real a) (real b)) :
      Traced [.stroke (.cubic a p q b)] [.stroke (.line a b)]
  | loop {a q : Point} (hloop : q ≠ a)
      (hink : ink a a q a = segment ℝ (real a) (real (a + (4 / 9 : ℚ) • (q - a)))) :
      Traced [.stroke (.cubic a a q a)] []

def Hand.drawn (hand : Hand) : List (Option Command) → List (List Mark)
  | [] => []
  | none :: rest => [] :: hand.drawn rest
  | some command :: rest => hand.marks (hand.figure command) :: (hand.after command).drawn rest

end Picture

def Edit.result (command : Command) : Edit → Option Command
  | keep => some command
  | replace other => some other
  | drop => none
  | merge other => some other

def outcomes (edit : Option Command → Command → Option Command → Edit) :
    Option Command → List Command → List (Option Command)
  | _, [] => []
  | previous, command :: rest =>
    (edit previous command rest.head?).result command ::
      outcomes edit ((edit previous command rest.head?).last previous command) rest

namespace Picture

open Hand (Agree Fits)

def CubicRule (holds : Option Command → Command → Option Command → Prop)
    (edit : Option Command → Command → Option Command → Edit) : Prop :=
  ∀ (hand : Hand) (previous : Option Command) (command : Command) (next : Option Command),
    command.Proper → Fits hand previous → holds previous command next →
      Straightens hand previous command next (edit previous command next)

section Outcomes

variable {hand origin : Hand} {previous next : Option Command} {command : Command} {edit : Edit}
  {rule : Option Command → Command → Option Command → Edit}
  {holds : Option Command → Command → Option Command → Prop}

lemma cubicRule_straightCubic : CubicRule ExactChordAt Edit.straightCubic :=
  fun _ _ _ _ hcommand hfit hexact => straightens_straightCubic hcommand hfit hexact

lemma cubicRule_axisCubic : CubicRule (fun _ _ _ => True) Edit.axisCubic :=
  fun _ _ _ _ hcommand hfit _ => straightens_axisCubic hcommand hfit

lemma Straightens.traced (h : Straightens hand previous command next edit) :
    Traced (hand.marks (hand.figure command))
      ((edit.result command).elim [] fun other => hand.marks (hand.figure other)) := by
  cases h with
  | keep => exact .same _
  | line _ _ hother hcommand _ hchord =>
    rw [Edit.result, Option.elim_some, hother, hcommand]
    exact .line hchord.ink_eq
  | loop _ hcommand hfirst hloop =>
    rw [Edit.result, Option.elim_none, hcommand, Hand.marks, hfirst]
    exact .loop hloop (ink_loop _ _)

lemma reduceOption_outcomes (hrule : ∀ previous command next other, rule previous command next ≠ .merge other)
    (previous : Option Command) (commands : List Command) :
    sweep rule previous commands = previous.toList ++ (outcomes rule previous commands).reduceOption := by
  induction commands generalizing previous with
  | nil => exact (List.append_nil _).symm
  | cons command rest ih =>
    rw [sweep, outcomes]
    cases hedit : rule previous command rest.head? with
    | keep => exact congrArg (previous.toList ++ ·) (ih _)
    | replace other => exact congrArg (previous.toList ++ ·) (ih _)
    | drop => exact ih _
    | merge other => exact absurd hedit (hrule _ _ _ _)

/-- At each command the hand that follows the result stands where the one that follows the path does, and
a smooth command there sees the same control point. -/
theorem CubicRule.traced (hrule : CubicRule holds rule) {previous : Option Command} {commands : List Command}
    (hhand : previous = none → hand.control = .none) (hprevious : ∀ c ∈ previous, c.Proper)
    (hcommands : ∀ c ∈ commands, c.Proper) (hholds : SweepAll holds rule previous commands)
    (hagree : Agree (hand.afterAll previous.toList) origin commands.head?) :
    List.Forall₂ Traced (origin.drawn (commands.map some))
      ((hand.afterAll previous.toList).drawn (outcomes rule previous commands)) := by
  induction commands generalizing hand origin previous with
  | nil => exact .nil
  | cons command rest ih =>
    obtain ⟨hstep, hrest⟩ := hholds
    obtain ⟨hcommand, hcommands⟩ := List.forall_mem_cons.mp hcommands
    obtain ⟨hmarks, hafter⟩ := hagree.draws
    have hedit := hrule _ previous command rest.head? hcommand (fits_front hand hhand) hstep
    have hsound := hedit.sound hprevious hcommand hhand
    have htraced := hedit.traced
    rw [hmarks] at htraced
    have hnext := hsound.same.agree
    rw [Hand.afterAll_append, Hand.afterAll_cons, Hand.afterAll_nil, hafter] at hnext
    rw [outcomes]
    cases hcase : rule previous command rest.head? with
    | keep =>
      rw [hcase] at htraced hnext hrest
      rw [Edit.outcome, Hand.afterAll_append] at hnext
      rw [Edit.last] at hrest ⊢
      refine .cons htraced (ih ?_ ?_ hcommands hrest hnext)
      · simp
      · simpa using hcommand
    | replace other =>
      rw [hcase] at htraced hnext hrest hsound
      rw [Edit.outcome, Hand.afterAll_append] at hnext
      rw [Edit.last] at hrest ⊢
      have hother : other.Proper := hsound.proper other (by simp [Edit.outcome])
      refine .cons htraced (ih ?_ ?_ hcommands hrest hnext)
      · simp
      · simpa using hother
    | drop =>
      rw [hcase] at htraced hnext hrest
      exact .cons htraced (ih hhand hprevious hcommands hrest hnext)
    | merge other =>
      rw [hcase] at hedit
      cases hedit

end Outcomes

end Picture

open Picture

variable {commands : List Command}

/-- What the rules on cubics make lines keeps its ink; what they take away runs out along a line and
back. -/
theorem traced_cubicRules (hproper : ∀ c ∈ commands, c.Proper)
    (hexact : Rule.straightCubics.Exact commands) :
    (Rule.straightCubics.apply commands = (outcomes Edit.straightCubic none commands).reduceOption ∧
      List.Forall₂ Traced (Hand.drawn {} (commands.map some))
        (Hand.drawn {} (outcomes Edit.straightCubic none commands))) ∧
    (Rule.axisCubics.apply commands = (outcomes Edit.axisCubic none commands).reduceOption ∧
      List.Forall₂ Traced (Hand.drawn {} (commands.map some))
        (Hand.drawn {} (outcomes Edit.axisCubic none commands))) := by
  have hagree : Hand.Agree (Hand.afterAll {} (none : Option Command).toList) {} commands.head? :=
    Hand.Agree.refl _ _
  refine ⟨⟨reduceOption_outcomes not_merge_straightCubic none commands, ?_⟩,
    reduceOption_outcomes not_merge_axisCubic none commands, ?_⟩
  · refine cubicRule_straightCubic.traced ?_ ?_ hproper hexact hagree
    · exact fun _ => rfl
    · simp
  · refine cubicRule_axisCubic.traced ?_ ?_ hproper (sweepAll_true _ _ _) hagree
    · exact fun _ => rfl
    · simp

namespace Example

def curves : List Command :=
  let n := Binary64.ofInt
  [ { letter := ⟨.move, true⟩, operands := [n 3, n 4] },
    { letter := ⟨.cubic, false⟩, operands := [n 0, n 0, n 1, n 2, n 2, n 4] },
    { letter := ⟨.horizontal, false⟩, operands := [n 9] },
    { letter := ⟨.smoothCubic, false⟩, operands := [n (-2), n 7, n 0, n 0] },
    { letter := ⟨.cubic, false⟩, operands := [n 0, n 5, n 0, n 1, n 0, n 5] },
    { letter := ⟨.smoothCubic, false⟩, operands := [n 1, n (-1), n 5, n (-5)] },
    { letter := ⟨.cubic, false⟩, operands := [n 0, n 0, n 1, n 2, n 2, n 4] },
    { letter := ⟨.smoothCubic, false⟩, operands := [n 5, n 5, n 6, n 6] },
    { letter := ⟨.cubic, false⟩, operands := [n (-1), n 0, n (-1), n 0, n (-2), n 0] } ]

def loop : List Command :=
  let n := Binary64.ofInt
  [ { letter := ⟨.move, true⟩, operands := [n 0, n 0] },
    { letter := ⟨.cubic, false⟩, operands := [n 0, n 0, n 5, n 5, n 0, n 0] } ]

end Example

theorem traced_cubicRules_curves :
    (∀ c ∈ Example.curves, c.Proper) ∧ Rule.straightCubics.Exact Example.curves ∧
      (Rule.straightCubics.apply Example.curves).map (fun c => c.letter.char) =
        ['M', 'l', 'h', 'c', 's', 'c', 's', 'c'] ∧
      (Rule.axisCubics.apply Example.curves).map (fun c => c.letter.char) =
        ['M', 'c', 'h', 's', 'c', 's', 'c', 's', 'h'] ∧
      (Rule.straightCubics.apply Example.curves = (outcomes Edit.straightCubic none Example.curves).reduceOption ∧
        List.Forall₂ Traced (Hand.drawn {} (Example.curves.map some))
          (Hand.drawn {} (outcomes Edit.straightCubic none Example.curves))) ∧
      (Rule.axisCubics.apply Example.curves = (outcomes Edit.axisCubic none Example.curves).reduceOption ∧
        List.Forall₂ Traced (Hand.drawn {} (Example.curves.map some))
          (Hand.drawn {} (outcomes Edit.axisCubic none Example.curves))) := by
  have hproper : ∀ c ∈ Example.curves, c.Proper := by decide +kernel
  have hexact : Rule.straightCubics.Exact Example.curves := by decide +kernel
  exact ⟨hproper, hexact, by decide +kernel, by decide +kernel, traced_cubicRules hproper hexact⟩

theorem ink_loop_lost :
    BeginsWithMove Example.loop ∧ (∀ c ∈ Example.loop, c.Proper) ∧
      (∀ c ∈ Example.loop, ∀ x ∈ c.operands, x.isInteger = true) ∧ Rule.straightCubics.Exact Example.loop ∧
      (Rule.straightCubics.apply Example.loop).length = 1 ∧
      Hand.drawn {} (Example.loop.map some) = [[.gap], [.stroke (.cubic 0 0 (5, 5) 0)]] ∧
      Hand.drawn {} (outcomes Edit.straightCubic none Example.loop) = [[.gap], []] ∧
      ink 0 0 (5, 5) 0 ≠ {real 0} := by
  refine ⟨?_, ?_, ?_, ?_, ?_, ?_, ?_, fun hpen => ?_⟩
  · simp [BeginsWithMove, Example.loop, Command.kind]
  all_goals try decide +kernel
  have hend := right_mem_segment ℝ (real 0) (real (0 + (4 / 9 : ℚ) • ((5, 5) - 0)))
  rw [← ink_loop, hpen, Set.mem_singleton_iff] at hend
  simp [real] at hend

end TersePath
