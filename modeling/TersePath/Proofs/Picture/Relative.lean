import TersePath.Proofs.Picture.Grid
import TersePath.Proofs.Picture.Respell
import TersePath.Path.Cursor

namespace TersePath

open Picture Binary64

namespace Picture

/-- A coordinate for which differences and sums with its like are exact. -/
def OnAxis (q : ℚ) : Prop := ∃ n : ℤ, q = n ∧ |n| < 2 ^ 52

def OnGrid (p : Point) : Prop := OnAxis p.1 ∧ OnAxis p.2

lemma OnGrid.along {p : Point} (h : OnGrid p) (axis : Axis) : OnAxis (along axis p) := by
  cases axis with
  | x => exact h.1
  | y => exact h.2

lemma onAxis_zero : OnAxis 0 := ⟨0, by simp, by simp⟩

lemma onGrid_of_integral {p : Point} (h : Integral p) (hnear : Near p) : OnGrid p := by
  obtain ⟨m, n, rfl⟩ := h
  have hbound : ∀ {k : ℤ}, |(k : ℚ)| < 2 ^ 52 → |k| < 2 ^ 52 := fun h => by exact_mod_cast h
  exact ⟨⟨m, rfl, hbound hnear.1⟩, ⟨n, rfl, hbound hnear.2⟩⟩

lemma integral_of_onGrid {p : Point} (h : OnGrid p) : Integral p := by
  obtain ⟨⟨m, hm, -⟩, n, hn, -⟩ := h
  exact ⟨m, n, Prod.ext hm hn⟩

lemma near_of_onGrid {p : Point} (h : OnGrid p) : Near p := by
  have hbound : ∀ {q : ℚ}, OnAxis q → |q| < 2 ^ 52 := by
    rintro q ⟨n, rfl, hlt⟩
    exact_mod_cast hlt
  exact ⟨hbound h.1, hbound h.2⟩

lemma sub_onAxis {x c : Binary64} {q p : ℚ} (hx : x.Is q) (hc : c.Is p) (hq : OnAxis q)
    (hp : OnAxis p) : (x - c).Is (q - p) := by
  obtain ⟨m, rfl, hm⟩ := hq
  obtain ⟨n, rfl, hn⟩ := hp
  have hdiff : ((m : ℚ) - n) = ((m - n : ℤ) : ℚ) := by push_cast; rfl
  rw [hdiff]
  refine sub_is hx hc hdiff (natAbs_le_of_abs ?_)
  rw [abs_lt] at hm hn
  rw [abs_le]
  constructor <;> omega

lemma add_onAxis {x c : Binary64} {d p : ℚ} (hc : c.Is p) (hx : x.Is d) (h : OnAxis (p + d)) :
    (c + x).Is (p + d) := by
  obtain ⟨n, hn, hlt⟩ := h
  rw [hn]
  exact add_is hc hx hn (natAbs_le_of_abs (hlt.le.trans (by norm_num)))

lemma add_zero_onAxis {c : Binary64} {p : ℚ} (hc : c.Is p) (h : OnAxis p) : (c + zero).Is p := by
  have hsum := add_onAxis hc ⟨isFinite_zero, value_zero⟩ (by rwa [add_zero])
  rwa [add_zero] at hsum

end Picture

lemma is_value {x : Binary64} (h : x.isFinite) : x.Is x.value := ⟨h, rfl⟩

structure Cursor.At (cursor : Cursor) (place : Place) : Prop where
  x : cursor.x.Is place.point.1
  y : cursor.y.Is place.point.2
  startX : cursor.startX.Is place.start.1
  startY : cursor.startY.Is place.start.2

lemma Cursor.At.get {cursor : Cursor} {place : Place} (h : cursor.At place) (axis : Axis) :
    (cursor.get axis).Is (along axis place.point) := by
  cases axis with
  | x => exact h.x
  | y => exact h.y

section Command

variable {cursor : Cursor} {place : Place} {command : Command}

lemma onGrid_end {absolute : Bool} {x y : Binary64}
    (h : OnGrid (place.base absolute + (x.value, y.value))) :
    OnAxis (basis absolute place.point.1 + x.value) ∧
      OnAxis (basis absolute place.point.2 + y.value) := by
  rwa [base_eq] at h

def Cursor.stepped (cursor : Cursor) (absolute : Bool) (x y : Binary64) : Cursor :=
  if absolute then { cursor with x, y } else { cursor with x := cursor.x + x, y := cursor.y + y }

lemma Cursor.At.stepped (hat : cursor.At place) {absolute : Bool} {x y : Binary64} (hx : x.isFinite)
    (hy : y.isFinite) (hend : OnGrid (place.base absolute + (x.value, y.value))) :
    (cursor.stepped absolute x y).At
      { place with point := place.base absolute + (x.value, y.value) } := by
  obtain ⟨hendx, hendy⟩ := onGrid_end hend
  rw [base_eq]
  cases absolute with
  | true =>
    refine ⟨⟨hx, ?_⟩, ⟨hy, ?_⟩, hat.startX, hat.startY⟩
    · exact (zero_add _).symm
    · exact (zero_add _).symm
  | false =>
    exact ⟨add_onAxis hat.x (is_value hx) hendx, add_onAxis hat.y (is_value hy) hendy, hat.startX,
      hat.startY⟩

lemma moveTo_at (hat : cursor.At place) (hproper : command.Proper) (hclose : command.kind ≠ .close)
    (hend : OnGrid (figure value place command).target) :
    (cursor.moveTo command).At
      { place with point := (figure value place command).target } := by
  obtain ⟨⟨kind, absolute⟩, operands, closes, text⟩ := command
  have hops : Operands kind operands := hproper.1.operands
  obtain ⟨-, hfinite⟩ := hproper
  cases hops with
  | close => exact absurd rfl hclose
  | horizontal x =>
    have hx : x.isFinite = true := hfinite x (by simp)
    cases absolute with
    | true => exact ⟨⟨hx, (zero_add _).symm⟩, hat.y, hat.startX, hat.startY⟩
    | false =>
      exact ⟨add_onAxis hat.x (is_value hx) hend.1, add_zero_onAxis hat.y hend.2, hat.startX,
        hat.startY⟩
  | vertical y =>
    have hy : y.isFinite = true := hfinite y (by simp)
    cases absolute with
    | true => exact ⟨hat.x, ⟨hy, (zero_add _).symm⟩, hat.startX, hat.startY⟩
    | false =>
      exact ⟨add_zero_onAxis hat.x hend.1, add_onAxis hat.y (is_value hy) hend.2, hat.startX,
        hat.startY⟩
  | move x y | line x y | cubic _ _ _ _ x y | smoothCubic _ _ x y | quadratic _ _ x y
  | smoothQuadratic x y | arc _ _ _ _ _ x y =>
    have hx : x.isFinite = true := hfinite x (by simp)
    have hy : y.isFinite = true := hfinite y (by simp)
    have hstepped := hat.stepped hx hy hend
    cases absolute with
    | true => exact hstepped
    | false => exact hstepped

lemma Cursor.At.advance (hat : cursor.At place) (hproper : command.Proper)
    (hend : OnGrid (figure value place command).target) :
    (cursor.advance command).At (place.after (figure value place command)) := by
  by_cases hclose : command.kind = .close
  · have hfigure : figure value place command = .close place.start := by
      simp only [figure, hclose]
    rw [hfigure]
    simp only [Cursor.advance, hclose]
    exact ⟨hat.startX, hat.startY, hat.startX, hat.startY⟩
  have hmoved := moveTo_at hat hproper hclose hend
  by_cases hmove : command.kind = .move
  · rw [figure_move hproper hmove]
    simp only [Cursor.advance, hmove]
    exact ⟨hmoved.x, hmoved.y, hmoved.x, hmoved.y⟩
  · rw [after_of_not_move (figure_ne_move hmove)]
    have hadvance : cursor.advance command = cursor.moveTo command := by
      rw [Cursor.advance]
      split
      · next h => exact absurd h hclose
      · next h => exact absurd h hmove
      · rfl
    rw [hadvance]
    exact hmoved

lemma Command.proper_relativeTo (hproper : command.Proper) (h : ∀ axis x,
    (Role.coordinate axis, x) ∈ command.withRoles → (x - cursor.get axis).isFinite = true) :
    (command.relativeTo cursor).Proper := by
  refine ⟨(List.length_mapIdx ..).trans hproper.1, fun y hy => ?_⟩
  obtain ⟨i, hi, rfl⟩ := List.mem_mapIdx.mp hy
  cases hrole : command.kind.role i with
  | coordinate axis => exact h axis _ (mem_withRoles.mpr ⟨i, hi, hrole, rfl⟩)
  | length => exact hproper.2 _ (List.getElem_mem hi)
  | unscaled => exact hproper.2 _ (List.getElem_mem hi)

lemma figure_relativeTo (hat : cursor.At place) (hpoint : OnGrid place.point)
    (hproper : command.Proper) (habsolute : command.absolute = true)
    (hpoints : ∀ p ∈ (figure value place command).points, OnGrid p) :
    figure value place (command.relativeTo cursor) = figure value place command ∧
      (command.relativeTo cursor).Proper := by
  have hdifference : ∀ axis x, (Role.coordinate axis, x) ∈ command.withRoles →
      (x - cursor.get axis).Is (x.value - along axis place.point) := by
    intro axis x hx
    obtain ⟨p, hp, halong⟩ := exists_along_point value place hproper.1 hx
    have hend := (hpoints p hp).along axis
    rw [halong, habsolute, along_base, basis_absolute, zero_add] at hend
    exact sub_onAxis (is_value (hproper.2 x (Command.mem_operands_of_withRoles hx))) (hat.get axis) hend
      (hpoint.along axis)
  constructor
  · rw [Command.relativeTo]
    refine (Carries.figure hproper.1 ?_).trans (Figure.map_id _)
    refine ⟨rfl, rfl, fun axis x hx => ?_, fun _ _ => rfl, fun _ => rfl⟩
    rw [habsolute, along_base, along_base, basis_relative, basis_absolute, (hdifference axis x hx).2,
      add_sub_cancel, zero_add, id]
  · exact Command.proper_relativeTo hproper fun axis x hx => (hdifference axis x hx).1

end Command

structure Repeats (spaced : Bool) (hand : Hand) (commands others : List Command) : Prop where
  figures : figures value hand.toPlace others = figures value hand.toPlace commands
  proper : ∀ c ∈ others, c.Proper
  keeps : KeepsAll spaced hand others

lemma Repeats.cons {spaced : Bool} {hand : Hand} {command result : Command}
    {commands others : List Command} (hfigure : hand.figure result = hand.figure command)
    (hproper : result.Proper) (hkeeps : Keeps spaced hand result)
    (h : Repeats spaced (hand.after command) commands others) :
    Repeats spaced hand (command :: commands) (result :: others) := by
  have hafter : hand.after result = hand.after command := by rw [Hand.after, hfigure, Hand.after]
  refine ⟨?_, List.forall_mem_cons.mpr ⟨hproper, h.proper⟩, hkeeps, hafter ▸ h.keeps⟩
  have hhead : figure value hand.toPlace result = figure value hand.toPlace command := hfigure
  have htail : Picture.figures value (hand.toPlace.after (figure value hand.toPlace command)) others =
    Picture.figures value (hand.toPlace.after (figure value hand.toPlace command)) commands := h.figures
  rw [Picture.figures, Picture.figures, hhead, htail]

lemma keeps_keepText {spaced : Bool} {hand : Hand} {command result : Command} (hproper : command.Proper)
    (hbare : command.Bare) (hcloses : result.closesSubpath = command.closesSubpath)
    (htext : result.absoluteText = some (command.text spaced))
    (hfigure : hand.figure result = hand.figure command) : Keeps spaced hand result := by
  refine ⟨hcloses.trans hbare.1, fun text h => ⟨command, hproper, hbare, ?_, .same hfigure.symm⟩⟩
  rw [htext] at h
  exact (Option.some.inj h).symm

lemma onGrid_after {place : Place} {f : Figure} (hstart : OnGrid place.start)
    (hpoints : ∀ p ∈ f.points, OnGrid p) :
    OnGrid (place.after f).point ∧ OnGrid (place.after f).start := by
  have htarget := hpoints _ (target_mem_points f)
  cases f with
  | move p => exact ⟨htarget, htarget⟩
  | _ => exact ⟨htarget, hstart⟩

theorem repeats_relativeFrom {spaced : Bool} {cursor : Cursor} {hand : Hand} {commands : List Command}
    (hat : cursor.At hand.toPlace) (hpoint : OnGrid hand.point) (hstart : OnGrid hand.start)
    (hproper : ∀ c ∈ commands, c.Proper) (hbare : ∀ c ∈ commands, c.Bare)
    (hpoints : ∀ f ∈ figures value hand.toPlace commands, ∀ p ∈ f.points, OnGrid p) :
    Repeats spaced hand commands (relativeFrom spaced cursor commands) := by
  induction commands generalizing cursor hand with
  | nil => exact ⟨rfl, by simp [relativeFrom], trivial⟩
  | cons command rest ih =>
    simp only [figures, List.forall_mem_cons] at hproper hbare hpoints
    obtain ⟨hnextPoint, hnextStart⟩ := onGrid_after hstart hpoints.1
    -- whatever becomes of the command, the rest goes on from the same place
    have hnext : ∀ result : Command, result.Proper → hand.figure result = hand.figure command →
        Keeps spaced hand result → Repeats spaced hand (command :: rest)
          (result :: relativeFrom spaced (cursor.advance result) rest) := by
      intro result hresult hfigure hkeeps
      have hplaced : figure value hand.toPlace result = figure value hand.toPlace command := hfigure
      have hadvance := hat.advance hresult (hplaced ▸ hpoints.1 _ (target_mem_points _))
      rw [hplaced] at hadvance
      exact .cons hfigure hresult hkeeps
        (ih hadvance hnextPoint hnextStart hproper.2 hbare.2 hpoints.2)
    rw [relativeFrom]
    by_cases hclose : command.kind = .close
    · simp only [if_pos hclose]
      exact hnext command hproper.1 rfl (keeps_of_bare hbare.1)
    · simp only [if_neg hclose]
      cases habsolute : command.absolute with
      | false =>
        rw [if_neg Bool.false_ne_true]
        exact hnext _ hproper.1 rfl (keeps_keepText hproper.1 hbare.1 rfl rfl rfl)
      | true =>
        have hkept : (command.keepText spaced).Proper := hproper.1
        obtain ⟨hfigure, hrelative⟩ := figure_relativeTo hat hpoint hkept habsolute hpoints.1
        rw [if_pos rfl]
        exact hnext _ hrelative hfigure (keeps_keepText hproper.1 hbare.1 rfl rfl hfigure)

lemma cursor_at_origin : Cursor.At {} {} := by
  have hzero : zero.Is 0 := ⟨isFinite_zero, value_zero⟩
  exact ⟨hzero, hzero, hzero, hzero⟩

/-- A path made relative leads to the same points, and each kept spelling is true. -/
theorem repeats_toRelative {spaced : Bool} {commands : List Command}
    (hproper : ∀ c ∈ commands, c.Proper) (hbare : ∀ c ∈ commands, c.Bare)
    (hpoints : ∀ f ∈ figures value {} commands, ∀ p ∈ f.points, OnGrid p) :
    Repeats spaced {} commands (toRelative spaced commands) := by
  cases commands with
  | nil => exact ⟨rfl, by simp [toRelative], trivial⟩
  | cons command rest =>
    simp only [figures, List.forall_mem_cons] at hproper hbare hpoints
    have hzero : OnGrid 0 := ⟨onAxis_zero, onAxis_zero⟩
    have hstart : OnGrid (Place.start {}) := hzero
    obtain ⟨hnextPoint, hnextStart⟩ := onGrid_after hstart hpoints.1
    have hnext : ∀ result : Command, result.Proper →
        Hand.figure {} result = Hand.figure {} command → Keeps spaced {} result →
        Repeats spaced {} (command :: rest)
          (result :: relativeFrom spaced (Cursor.advance {} result) rest) := by
      intro result hresult hfigure hkeeps
      have hplaced : figure value {} result = figure value {} command := hfigure
      have hadvance := cursor_at_origin.advance hresult (hplaced ▸ hpoints.1 _ (target_mem_points _))
      rw [hplaced] at hadvance
      exact .cons hfigure hresult hkeeps
        (repeats_relativeFrom hadvance hnextPoint hnextStart hproper.2 hbare.2 hpoints.2)
    rw [toRelative]
    by_cases hclose : command.kind = .close
    · simp only [if_pos hclose]
      exact hnext command hproper.1 rfl (keeps_of_bare hbare.1)
    · simp only [if_neg hclose]
      exact hnext _ hproper.1 rfl (keeps_keepText hproper.1 hbare.1 rfl rfl rfl)

end TersePath
