import TersePath.Proofs.Path.Operands
import TersePath.Proofs.Picture.Figure

namespace TersePath.Picture

namespace Hand

open Mark (join joinAll)

def lead (hand : Hand) : Kind → Point
  | .smoothCubic => hand.cubicLead
  | .smoothQuadratic => hand.quadraticLead
  | _ => hand.point

lemma lead_of_control_none {hand : Hand} (h : hand.control = .none) (kind : Kind) :
    hand.lead kind = hand.point := by
  cases kind <;> simp [lead, cubicLead, quadraticLead, h]

/-- Hands at one place with the same control point for a smooth command, if that comes next. -/
structure Agree (a b : Hand) (next : Option Command) : Prop where
  place : a.toPlace = b.toPlace
  lead : ∀ kind, Command.follower? next = some kind → a.lead kind = b.lead kind

lemma Agree.refl (hand : Hand) (next : Option Command) : Agree hand hand next :=
  ⟨rfl, fun _ _ => rfl⟩

lemma Agree.symm {a b : Hand} {next : Option Command} (h : Agree a b next) : Agree b a next :=
  ⟨h.place.symm, fun kind hk => (h.lead kind hk).symm⟩

lemma agree_of_point {a b : Hand} {next : Option Command} (hplace : a.toPlace = b.toPlace)
    (ha : ∀ kind, Command.follower? next = some kind → a.lead kind = a.point)
    (hb : ∀ kind, Command.follower? next = some kind → b.lead kind = b.point) : Agree a b next := by
  refine ⟨hplace, fun kind hk => ?_⟩
  rw [ha kind hk, hb kind hk, hplace]

lemma figure_congr {a b : Hand} (h : a.toPlace = b.toPlace) (command : Command) :
    a.figure command = b.figure command := by
  rw [Hand.figure, Hand.figure, h]

lemma kind_of_isSmoothCubic {hand : Hand} {command : Command}
    (h : (hand.figure command).isSmoothCubic) : command.kind = .smoothCubic := by
  simp only [Hand.figure, Picture.figure] at h
  split at h <;> first | assumption | simp [Figure.isSmoothCubic] at h

lemma kind_of_isSmoothQuadratic {hand : Hand} {command : Command}
    (h : (hand.figure command).isSmoothQuadratic) : command.kind = .smoothQuadratic := by
  simp only [Hand.figure, Picture.figure] at h
  split at h <;> first | assumption | simp [Figure.isSmoothQuadratic] at h

lemma marks_congr {a b : Hand} (hplace : a.toPlace = b.toPlace) (figure : Figure)
    (hc : figure.isSmoothCubic → a.cubicLead = b.cubicLead)
    (hq : figure.isSmoothQuadratic → a.quadraticLead = b.quadraticLead) :
    a.marks figure = b.marks figure ∧ a.follow figure = b.follow figure := by
  rcases figure with p | p | ⟨_ | f, q, p⟩ | ⟨_ | f, p⟩ | ⟨r, m, p⟩ | p
  · simp [marks, follow, leaves, hplace]
  · simp [marks, follow, leaves, hplace]
  · simp [marks, follow, leaves, hplace, hc rfl]
  · simp [marks, follow, leaves, hplace]
  · simp [marks, follow, leaves, hplace, hq rfl]
  · simp [marks, follow, leaves, hplace]
  · simp [marks, follow, leaves, hplace]
  · simp [marks, follow, leaves, hplace]

lemma Agree.draws {a b : Hand} {command : Command} (h : Agree a b (some command)) :
    a.marks (a.figure command) = b.marks (b.figure command) ∧ a.after command = b.after command := by
  have hf := figure_congr h.place command
  obtain ⟨hm, ha⟩ := marks_congr h.place (b.figure command)
    (fun hs => h.lead .smoothCubic (by simp [Command.follower?, kind_of_isSmoothCubic hs, Kind.isSmooth]))
    (fun hs => h.lead .smoothQuadratic
      (by simp [Command.follower?, kind_of_isSmoothQuadratic hs, Kind.isSmooth]))
  exact ⟨by rw [hf, hm], by rw [after, after, hf, ha]⟩

lemma Agree.step {a b : Hand} {command : Command} (h : Agree a b (some command)) :
    a.sight command = b.sight command ∧ a.after command = b.after command :=
  ⟨by rw [sight, sight, h.draws.1], h.draws.2⟩

theorem Agree.view {a b : Hand} {rest : List Command} (h : Agree a b rest.head?) :
    a.view rest = b.view rest := by
  cases rest with
  | nil => rfl
  | cons command rest =>
    obtain ⟨hs, ha⟩ := h.step
    rw [view_cons, view_cons, hs, ha]

/-- Where a hand can be when `previous` is the command before. -/
def Fits (hand : Hand) : Option Command → Prop
  | none => hand.control = .none
  | some command => ∃ before : Hand, hand = before.after command

lemma fits_afterAll {hand : Hand} {previous : Option Command}
    (h : previous = none → hand.control = .none) : Fits (hand.afterAll previous.toList) previous := by
  cases previous with
  | none => exact h rfl
  | some command => exact ⟨hand, rfl⟩

lemma isCubic_of_figure {hand : Hand} {command : Command} (h : (hand.figure command).isCubic) :
    command.kind.isCubic := by
  simp only [Hand.figure, Picture.figure] at h
  split at h <;> simp_all [Figure.isCubic, Kind.isCubic]

lemma isQuadratic_of_figure {hand : Hand} {command : Command}
    (h : (hand.figure command).isQuadratic) : command.kind.isQuadratic := by
  simp only [Hand.figure, Picture.figure] at h
  split at h <;> simp_all [Figure.isQuadratic, Kind.isQuadratic]

lemma cubicLead_follow {hand : Hand} {figure : Figure} (h : figure.isCubic = false) :
    (hand.follow figure).cubicLead = (hand.follow figure).point := by
  cases figure <;> first | rfl | simp [Figure.isCubic] at h

lemma quadraticLead_follow {hand : Hand} {figure : Figure} (h : figure.isQuadratic = false) :
    (hand.follow figure).quadraticLead = (hand.follow figure).point := by
  cases figure <;> first | rfl | simp [Figure.isQuadratic] at h

lemma cubicLead_of_not_cubic {hand : Hand} {command : Command} (h : command.kind.isCubic = false) :
    (hand.after command).cubicLead = (hand.after command).point :=
  cubicLead_follow (Bool.eq_false_iff.mpr fun hf => by simp [isCubic_of_figure hf] at h)

lemma quadraticLead_of_not_quadratic {hand : Hand} {command : Command}
    (h : command.kind.isQuadratic = false) :
    (hand.after command).quadraticLead = (hand.after command).point :=
  quadraticLead_follow (Bool.eq_false_iff.mpr fun hf => by simp [isQuadratic_of_figure hf] at h)

@[simp] lemma reflect_self (p : Point) : reflect p p = p := by simp [reflect]

lemma lead_of_endsAtControl {hand : Hand} {command : Command} (hp : command.Proper)
    (h : command.endsAtControl) :
    (command.kind.isCubic → (hand.after command).cubicLead = (hand.after command).point) ∧
      (command.kind = .quadratic →
        (hand.after command).quadraticLead = (hand.after command).point) := by
  obtain ⟨⟨kind, absolute⟩, operands, closes, text⟩ := command
  obtain ⟨hw, hfin⟩ := hp
  have hops : Operands kind operands := hw.operands
  simp only [Command.kind]
  cases hops with
  | cubic x1 y1 x2 y2 x y =>
    simp only [List.mem_cons, List.not_mem_nil, or_false, forall_eq_or_imp, forall_eq] at hfin
    obtain ⟨-, -, h1, h2, h3, h4⟩ := hfin
    simp only [Command.endsAtControl, List.reverse_cons, List.reverse_nil, List.nil_append,
      List.cons_append, Bool.and_eq_true, Binary64.equals_iff h1 h3, Binary64.equals_iff h2 h4] at h
    refine ⟨fun _ => ?_, fun h => absurd h (by decide)⟩
    simp [after, follow, Hand.figure, Picture.figure, Command.kind, leaves, cubicLead, Place.after,
      Figure.target, h.1, h.2]
  | smoothCubic x2 y2 x y =>
    simp only [List.mem_cons, List.not_mem_nil, or_false, forall_eq_or_imp, forall_eq] at hfin
    obtain ⟨h1, h2, h3, h4⟩ := hfin
    simp only [Command.endsAtControl, List.reverse_cons, List.reverse_nil, List.nil_append,
      List.cons_append, Bool.and_eq_true, Binary64.equals_iff h1 h3, Binary64.equals_iff h2 h4] at h
    refine ⟨fun _ => ?_, fun h => absurd h (by decide)⟩
    simp [after, follow, Hand.figure, Picture.figure, Command.kind, leaves, cubicLead, Place.after,
      Figure.target, h.1, h.2]
  | quadratic x1 y1 x y =>
    simp only [List.mem_cons, List.not_mem_nil, or_false, forall_eq_or_imp, forall_eq] at hfin
    obtain ⟨h1, h2, h3, h4⟩ := hfin
    simp only [Command.endsAtControl, List.reverse_cons, List.reverse_nil, List.nil_append,
      List.cons_append, Bool.and_eq_true, Binary64.equals_iff h1 h3, Binary64.equals_iff h2 h4] at h
    refine ⟨fun h => absurd h (by decide), fun _ => ?_⟩
    simp [after, follow, Hand.figure, Picture.figure, Command.kind, leaves, quadraticLead,
      Place.after, Figure.target, h.1, h.2]
  | _ => exact ⟨fun h => absurd h (by decide), fun h => absurd h (by decide)⟩

/-- The guard of the rules: where it says so, the control point is the pen itself. -/
theorem lead_of_reflectsPen {hand : Hand} {previous : Option Command} {kind : Kind}
    (hp : ∀ command ∈ previous, command.Proper) (hfit : Fits hand previous)
    (h : reflectsPen previous kind) : hand.lead kind = hand.point := by
  cases previous with
  | none => exact lead_of_control_none hfit kind
  | some command =>
    obtain ⟨before, rfl⟩ := hfit
    cases kind with
    | smoothCubic =>
      simp only [reflectsPen, Bool.or_eq_true, Bool.not_eq_true'] at h
      rcases h with h | h
      · exact cubicLead_of_not_cubic h
      · cases hk : command.kind.isCubic with
        | false => exact cubicLead_of_not_cubic hk
        | true => exact (lead_of_endsAtControl (hp command rfl) h).1 hk
    | smoothQuadratic =>
      simp only [reflectsPen, Bool.or_eq_true, Bool.not_eq_true', Bool.and_eq_true, beq_iff_eq] at h
      rcases h with h | ⟨hk, h⟩
      · exact quadraticLead_of_not_quadratic h
      · exact (lead_of_endsAtControl (hp command rfl) h).2 hk
    | _ => rfl

end Hand

section Close

variable {command : Command}

lemma kind_of_close {hand : Hand} {p : Point} (h : hand.figure command = .close p) :
    command.kind = .close := by
  simp only [Hand.figure, figure] at h
  split at h <;> first | assumption | cases h

lemma figure_of_close {read : Binary64 → ℚ} (h : command.kind = .close) (place : Place) :
    figure read place command = .close place.start := by
  simp only [figure, h]

lemma figure_close (hand : Hand) (h : command.kind = .close) :
    hand.figure command = .close hand.start := figure_of_close h hand.toPlace

lemma after_close (hand : Hand) (h : command.kind = .close) :
    hand.after command = ⟨⟨hand.start, hand.start⟩, .none⟩ := by
  rw [Hand.after, figure_close hand h]
  rfl

lemma sight_close (hand : Hand) (h : command.kind = .close) :
    hand.sight command =
      [Mark.stroke (.close hand.point hand.start)].filterMap Mark.seen ++ [.gap] := by
  rw [Hand.sight, figure_close hand h, Hand.marks, ← List.singleton_append, List.filterMap_append]
  rfl

lemma sight_close_still {hand : Hand} (h : command.kind = .close) (hpoint : hand.point = hand.start) :
    hand.sight command = [.gap] := by
  simp [sight_close hand h, Mark.seen, Stroke.seen, hpoint]

end Close

end TersePath.Picture
