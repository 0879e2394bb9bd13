import TersePath.Proofs.Picture.Respell

/-! A path beside another spelling of it. The pens move together, but a curve in one spelling may be a
line in the other, so a smooth cubic after it may reflect a control point in one of them alone. Where it
then shows something else, it shows a curve, and curves can be counted. -/

namespace TersePath.Picture

open Mark (join joinAll)

/-- The hand of another spelling: the control points may part, but only after a line. -/
structure Beside (hand other : Hand) : Prop where
  place : other.toPlace = hand.toPlace
  quadraticLead : other.quadraticLead = hand.quadraticLead
  cubicLead : other.cubicLead = hand.cubicLead ∨ hand.cubicLead = hand.point

lemma Beside.refl (hand : Hand) : Beside hand hand := ⟨rfl, rfl, Or.inl rfl⟩

/-- A curve with its first control point elsewhere than at the pen is seen as it was, or in full. -/
lemma seen_shift (a f q b : Point) : (Stroke.cubic a f q b).seen = (Stroke.cubic a a q b).seen ∨
    (Stroke.cubic a f q b).seen = some (.cubic a f q b) := by
  by_cases hstill : f = a ∧ b = a
  · obtain ⟨rfl, rfl⟩ := hstill
    exact Or.inl rfl
  by_cases halong : AlongChord a f q b
  · have hpen : AlongChord a a q b := by
      obtain ⟨hne, -, hcross, hlow, hmiddle, hhigh⟩ := halong
      refine ⟨hne, ?_, hcross, ?_, ?_, hhigh⟩
      · simp [cross]
      · simp [dot]
      · rw [sub_self]
        simpa [dot] using hlow.trans hmiddle
    have hb : b ≠ a := halong.1.symm
    left
    simp only [Stroke.seen, hb, and_false, if_false, hpen, halong, if_true]
  · right
    simp only [Stroke.seen, hstill, halong, if_false]

/-- The same is seen, or a curve instead of one thing at most. -/
def Nearly (marks other : List Mark) : Prop :=
  other = marks ∨ ∃ s : Stroke, s.isCubic ∧ other = [.stroke s] ∧ marks.length ≤ 1

lemma nearly_seen (a f q b : Point) :
    Nearly ([Mark.stroke (.cubic a a q b)].filterMap Mark.seen)
      ([Mark.stroke (.cubic a f q b)].filterMap Mark.seen) := by
  rcases seen_shift a f q b with h | h
  · left
    simp only [List.filterMap_cons, Mark.seen, h]
  · refine Or.inr ⟨.cubic a f q b, rfl, ?_, ?_⟩
    · simp [Mark.seen, h]
    · exact List.length_filterMap_le _ _

section Step

variable {hand other : Hand} {origin command : Command}

lemma sight_cubic {first : Option Point} {q p : Point} (h : hand.figure command = .cubic first q p) :
    hand.sight command =
      [Mark.stroke (.cubic hand.point (first.getD hand.cubicLead) q p)].filterMap Mark.seen := by
  rw [Hand.sight, h]
  rfl

lemma after_cubic {first : Option Point} {q p : Point} (h : hand.figure command = .cubic first q p) :
    hand.after command = ⟨⟨p, hand.start⟩, .cubic q⟩ := by
  rw [Hand.after, h]
  rfl

lemma ne_smoothCubic {first : Option Point} {q p : Point}
    (h : hand.figure command = .cubic first q p) (hkind : command.kind ≠ .smoothCubic) :
    ∃ f, first = some f := by
  cases first with
  | some f => exact ⟨f, rfl⟩
  | none =>
    refine absurd (Hand.kind_of_isSmoothCubic (?_ : (hand.figure command).isSmoothCubic)) hkind
    rw [h]
    rfl

lemma Beside.figure (h : Beside hand other) (command : Command) :
    other.figure command = hand.figure command :=
  Hand.figure_congr h.place command

lemma Beside.point (h : Beside hand other) : other.point = hand.point :=
  congrArg Place.point h.place

lemma Beside.start (h : Beside hand other) : other.start = hand.start :=
  congrArg Place.start h.place

lemma Beside.follow (h : Beside hand other) (figure : Figure) :
    Beside (hand.follow figure) (other.follow figure) := by
  obtain ⟨⟨point, start⟩, control⟩ := hand
  obtain ⟨⟨point', start'⟩, control'⟩ := other
  obtain ⟨hplace, hquadratic, -⟩ := h
  cases hplace
  rcases figure with p | p | ⟨_ | f, q, p⟩ | ⟨_ | f, p⟩ | ⟨r, m, p⟩ | p
  case quadratic.none => exact ⟨rfl, congrArg (reflect p) hquadratic, Or.inl rfl⟩
  all_goals exact ⟨rfl, rfl, Or.inl rfl⟩

lemma Beside.after_of_same (h : Beside hand other)
    (hfigure : hand.figure origin = hand.figure command) :
    Beside (hand.after command) (other.after origin) := by
  rw [Hand.after, Hand.after, h.figure, hfigure]
  exact h.follow _

lemma Beside.nearly_smooth (h : Beside hand other) {q p : Point}
    (horigin : hand.figure origin = .cubic none q p)
    (hsight : hand.sight command = [Mark.stroke (.cubic hand.point hand.point q p)].filterMap Mark.seen) :
    Nearly (hand.sight command) (other.sight origin) := by
  rw [← h.figure] at horigin
  rw [sight_cubic horigin, hsight, h.point]
  exact nearly_seen _ _ _ _

lemma Beside.sight_of_same (h : Beside hand other)
    (hfigure : hand.figure origin = hand.figure command) :
    (origin.kind ≠ .smoothCubic → other.sight origin = hand.sight command) ∧
      Nearly (hand.sight command) (other.sight origin) := by
  have hmarks : ((hand.figure command).isSmoothCubic → other.cubicLead = hand.cubicLead) →
      other.sight origin = hand.sight command := by
    intro hlead
    rw [Hand.sight, Hand.sight, h.figure, hfigure,
      (Hand.marks_congr h.place _ hlead fun _ => h.quadraticLead).1]
  refine ⟨fun hkind => hmarks fun hsmooth => ?_, ?_⟩
  · rw [← hfigure] at hsmooth
    exact absurd (Hand.kind_of_isSmoothCubic hsmooth) hkind
  · rcases h.cubicLead with hlead | hpen
    · exact Or.inl (hmarks fun _ => hlead)
    · cases hf : hand.figure command with
      | cubic first q p =>
        cases first with
        | none =>
          refine h.nearly_smooth (hfigure.trans hf) ?_
          rw [sight_cubic hf, Option.getD_none, hpen]
        | some f => exact Or.inl (hmarks fun hsmooth => by rw [hf] at hsmooth; cases hsmooth)
      | _ => exact Or.inl (hmarks fun hsmooth => by rw [hf] at hsmooth; cases hsmooth)

theorem Beside.step (h : Beside hand other) (hr : Respells hand origin command) :
    Beside (hand.after command) (other.after origin) ∧
      (origin.kind ≠ .smoothCubic → other.sight origin = hand.sight command) ∧
      Nearly (hand.sight command) (other.sight origin) := by
  cases hr with
  | same hfigure =>
    exact ⟨h.after_of_same hfigure, h.sight_of_same hfigure⟩
  | @flat first q p horigin hcommand hseen =>
    have hother := (h.figure origin).trans horigin
    have hsight : hand.sight command = [Mark.stroke (.cubic hand.point (first.getD hand.point) q
        p)].filterMap Mark.seen := by
      rw [Hand.sight, hcommand, Hand.marks, List.filterMap_cons, List.filterMap_cons, Mark.seen,
        Mark.seen, hseen]
    refine ⟨?_, fun hkind => ?_, ?_⟩
    · rw [after_cubic hother, h.start, Hand.after, hcommand]
      exact ⟨rfl, rfl, Or.inr rfl⟩
    · obtain ⟨f, rfl⟩ := ne_smoothCubic horigin hkind
      rw [sight_cubic hother, hsight, h.point]
      rfl
    · cases first with
      | none => exact h.nearly_smooth horigin hsight
      | some f =>
        left
        rw [sight_cubic hother, hsight, h.point]
        rfl
  | @curved first first' q p horigin hcommand hfirst hlead =>
    have hother := (h.figure origin).trans horigin
    have hsight : hand.sight command =
        [Mark.stroke (.cubic hand.point hand.point q p)].filterMap Mark.seen := by
      rw [sight_cubic hcommand, hlead]
    refine ⟨?_, fun hkind => ?_, ?_⟩
    · rw [after_cubic hother, after_cubic hcommand, h.start]
      exact ⟨rfl, rfl, Or.inl rfl⟩
    · obtain ⟨f, rfl⟩ := ne_smoothCubic horigin hkind
      rw [sight_cubic hother, hsight, h.point, ← hfirst]
      rfl
    · cases first with
      | none => exact h.nearly_smooth horigin hsight
      | some f =>
        left
        rw [sight_cubic hother, hsight, h.point, ← hfirst]
        rfl

end Step

inductive RespellsAll : Hand → List Command → List Command → Prop
  | nil (hand : Hand) : RespellsAll hand [] []
  | cons {hand : Hand} {origin command : Command} {origins commands : List Command}
      (head : Respells hand origin command)
      (tail : RespellsAll (hand.after command) origins commands) :
      RespellsAll hand (origin :: origins) (command :: commands)

lemma RespellsAll.length {hand : Hand} {origins commands : List Command}
    (h : RespellsAll hand origins commands) : origins.length = commands.length := by
  induction h with
  | nil => rfl
  | cons _ _ ih => simp [ih]

lemma RespellsAll.nearly {hand other : Hand} {origins commands : List Command}
    (h : RespellsAll hand origins commands) (hbeside : Beside hand other) :
    List.Forall₂ Nearly (hand.sights commands) (other.sights origins) := by
  induction h generalizing other with
  | nil => exact .nil
  | cons head _ ih =>
    obtain ⟨hafter, -, hnearly⟩ := hbeside.step head
    exact .cons hnearly (ih hafter)

lemma RespellsAll.sights_eq {hand other : Hand} {origins commands : List Command}
    (h : RespellsAll hand origins commands) (hbeside : Beside hand other)
    (hsmooth : ∀ (i : ℕ) (origin : Command), origins[i]? = some origin → origin.kind = .smoothCubic →
      (other.sights origins)[i]? = (hand.sights commands)[i]?) :
    other.sights origins = hand.sights commands := by
  induction h generalizing other with
  | nil => rfl
  | @cons hand origin command origins commands head tail ih =>
    obtain ⟨hafter, hsight, -⟩ := hbeside.step head
    have hfirst : other.sight origin = hand.sight command := by
      by_cases hkind : origin.kind = .smoothCubic
      · exact Option.some.inj (hsmooth 0 origin rfl hkind)
      · exact hsight hkind
    rw [Hand.sights, Hand.sights, hfirst, ih hafter fun i => hsmooth (i + 1)]

def curves (marks : List Mark) : List Mark := marks.filter Mark.isCubic

lemma curves_join (mark : Mark) (rest : List Mark) : curves (join mark rest) = curves (mark :: rest) := by
  cases mark with
  | gap =>
    rcases rest with _ | ⟨_ | _, _⟩ <;> rfl
  | stroke s =>
    rcases rest with _ | ⟨_ | t, rest⟩
    · rfl
    · rfl
    · rw [join]
      split
      · next u hu =>
        obtain ⟨a, b, c, rfl, rfl, rfl, -⟩ := joined_eq_some hu
        rfl
      · rfl

lemma curves_joinAll (marks rest : List Mark) :
    curves (joinAll marks rest) = curves marks ++ curves rest := by
  induction marks with
  | nil => rfl
  | cons mark marks ih =>
    have hcons : joinAll (mark :: marks) rest = join mark (joinAll marks rest) := rfl
    rw [hcons, curves_join]
    simp only [curves, List.filter_cons] at ih ⊢
    rw [ih]
    split <;> rfl

lemma curves_of_strokes (marks : List Mark) :
    ((marks.filterMap Mark.stroke?).filter Stroke.isCubic).map Mark.stroke = curves marks := by
  induction marks with
  | nil => rfl
  | cons mark marks ih =>
    cases mark with
    | gap => exact ih
    | stroke s =>
      cases hs : s.isCubic with
      | true => simpa [curves, Mark.stroke?, Mark.isCubic, hs] using ih
      | false => simpa [curves, Mark.stroke?, Mark.isCubic, hs] using ih

lemma Nearly.length_curves {marks other : List Mark} (h : Nearly marks other) :
    (curves marks).length ≤ (curves other).length := by
  rcases h with rfl | ⟨s, hs, rfl, hlength⟩
  · exact le_rfl
  · have hone : curves [Mark.stroke s] = [Mark.stroke s] := by simp [curves, Mark.isCubic, hs]
    rw [hone]
    exact (List.length_filter_le _ _).trans hlength

lemma Nearly.eq_of_curves {marks other : List Mark} (h : Nearly marks other)
    (hcurves : curves marks = curves other) : other = marks := by
  rcases h with rfl | ⟨s, hs, rfl, hlength⟩
  · rfl
  · have hone : curves [Mark.stroke s] = [Mark.stroke s] := by simp [curves, Mark.isCubic, hs]
    rw [hone] at hcurves
    have hmem : Mark.stroke s ∈ marks := by
      refine List.mem_of_mem_filter (p := Mark.isCubic) ?_
      rw [curves] at hcurves
      rw [hcurves]
      exact List.mem_singleton_self _
    obtain ⟨mark, rfl⟩ := List.length_eq_one_iff.mp
      (le_antisymm hlength (List.length_pos_of_mem hmem))
    rw [List.mem_singleton.mp hmem]

/-- With as many curves in all, nothing shows a curve instead of something else. -/
lemma eq_of_curves_flatten {sights others : List (List Mark)} (h : List.Forall₂ Nearly sights others)
    (hcurves : curves sights.flatten = curves others.flatten) : others = sights := by
  have htotal : ∀ {sights others : List (List Mark)}, List.Forall₂ Nearly sights others →
      (curves sights.flatten).length ≤ (curves others.flatten).length := by
    intro sights others h
    induction h with
    | nil => exact le_rfl
    | cons head _ ih =>
      simp only [List.flatten_cons, curves, List.filter_append, List.length_append] at ih ⊢
      exact add_le_add head.length_curves ih
  induction h with
  | nil => rfl
  | @cons marks other sights others head tail ih =>
    simp only [List.flatten_cons, curves, List.filter_append] at hcurves
    have hlength := congrArg List.length hcurves
    rw [List.length_append, List.length_append] at hlength
    have hhead := head.length_curves
    have htail := htotal tail
    simp only [curves] at hhead htail
    obtain ⟨hfirst, hrest⟩ := List.append_inj hcurves (by omega)
    rw [head.eq_of_curves hfirst, ih hrest]

/-- Two spellings draw one picture exactly when the smooth cubics of the other one show what they
stand for. -/
theorem RespellsAll.picture_iff {hand other : Hand} {origins commands : List Command}
    (h : RespellsAll hand origins commands) (hbeside : Beside hand other) :
    (other.view origins).filterMap Mark.stroke? = (hand.view commands).filterMap Mark.stroke? ↔
      ∀ (i : ℕ) (origin : Command), origins[i]? = some origin → origin.kind = .smoothCubic →
        (other.sights origins)[i]? = (hand.sights commands)[i]? := by
  constructor
  · intro hpicture
    have hcurves : curves (hand.sights commands).flatten = curves (other.sights origins).flatten := by
      have hmarks : curves (other.view origins) = curves (hand.view commands) := by
        rw [← curves_of_strokes, ← curves_of_strokes, hpicture]
      rw [Hand.view, Hand.view, curves_joinAll, curves_joinAll] at hmarks
      exact (List.append_cancel_right hmarks).symm
    intro i origin _ _
    rw [eq_of_curves_flatten (h.nearly hbeside) hcurves]
  · intro hsmooth
    rw [Hand.view, Hand.view, h.sights_eq hbeside hsmooth]

end TersePath.Picture
