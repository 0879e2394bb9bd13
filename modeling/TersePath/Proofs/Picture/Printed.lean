import TersePath.Proofs.Path.Reread
import TersePath.Proofs.Picture.Beside

/-! The path that is printed. Where a kept spelling is the shorter one, it is the origin of a command
that is printed and not the command itself. -/

namespace TersePath

open Binary64

namespace Picture

open Mark (joinAll)

lemma kind_of_move {hand : Hand} {command : Command} {p : Point}
    (h : hand.figure command = .move p) : command.kind = .move := by
  simp only [Hand.figure, figure] at h
  split at h <;> first | assumption | cases h

lemma exists_figure_move (hand : Hand) {command : Command} (hproper : command.Proper)
    (h : command.kind = .move) : ∃ p, hand.figure command = .move p := by
  obtain ⟨⟨kind, absolute⟩, operands, closes, text⟩ := command
  obtain rfl : kind = .move := h
  have hops : Operands .move operands := hproper.1.operands
  cases hops
  exact ⟨_, rfl⟩

lemma Respells.close_iff {hand : Hand} {origin command : Command} (h : Respells hand origin command) :
    origin.kind = .close ↔ command.kind = .close := by
  cases h with
  | same hfigure =>
    constructor
    · intro hk
      exact kind_of_close (hfigure.symm.trans (figure_close hand hk))
    · intro hk
      exact kind_of_close (hfigure.trans (figure_close hand hk))
  | flat horigin hcommand | curved horigin hcommand =>
    constructor
    · intro hk
      cases horigin.symm.trans (figure_close hand hk)
    · intro hk
      cases hcommand.symm.trans (figure_close hand hk)

lemma Respells.move {hand : Hand} {origin command : Command} (h : Respells hand origin command)
    (hproper : command.Proper) (hk : command.kind = .move) : origin.kind = .move := by
  obtain ⟨p, hp⟩ := exists_figure_move hand hproper hk
  cases h with
  | same hfigure => exact kind_of_move (hfigure.trans hp)
  | flat horigin hcommand | curved horigin hcommand => cases hcommand.symm.trans hp

lemma after_close_close (hand : Hand) {command other : Command} (h : command.kind = .close)
    (hother : other.kind = .close) : (hand.after command).after other = hand.after other := by
  rw [after_close hand h, after_close hand hother, after_close _ hother]

lemma view_close_close (hand : Hand) {command other : Command} (h : command.kind = .close)
    (hother : other.kind = .close) (rest : List Command) :
    hand.view (command :: other :: rest) = hand.view (other :: rest) := by
  have hsecond : (hand.after command).sight other = [.gap] := by
    refine sight_close_still hother ?_
    rw [after_close hand h]
  have hgap : ∀ marks : List Mark, joinAll [.gap] (joinAll [.gap] marks) = joinAll [.gap] marks :=
    join_gap_gap
  rw [Hand.view_cons, Hand.view_cons, Hand.view_cons, after_close_close hand h hother, hsecond,
    sight_close hand h, sight_close hand hother, joinAll_append, joinAll_append, hgap]

lemma view_singleCloses (hand : Hand) (commands : List Command) :
    hand.view (singleCloses commands) = hand.view commands := by
  induction commands generalizing hand with
  | nil => rfl
  | cons command rest ih =>
    rw [singleCloses]
    split
    · next h =>
      obtain ⟨hclose, hnext⟩ := Bool.and_eq_true_iff.mp h
      obtain ⟨next, hhead, hkind⟩ := (Option.any_eq_true ..).mp hnext
      obtain ⟨others, rfl⟩ := List.head?_eq_some_iff.mp hhead
      rw [ih, view_close_close hand (beq_iff_eq.mp hclose) (beq_iff_eq.mp hkind)]
    · rw [Hand.view_cons, Hand.view_cons, ih]

/-- Commands that draw the same from everywhere. -/
structure Alike (command other : Command) : Prop where
  kind : other.kind = command.kind
  figure : ∀ place, figure value place other = figure value place command

lemma figures_of_alike {place : Place} {commands others : List Command}
    (h : List.Forall₂ Alike commands others) :
    figures value place others = figures value place commands := by
  induction h generalizing place with
  | nil => rfl
  | cons head _ ih => rw [figures, figures, head.figure, ih]

lemma Respells.place {hand : Hand} {origin command : Command} (h : Respells hand origin command) :
    hand.toPlace.after (hand.figure origin) = hand.toPlace.after (hand.figure command) := by
  cases h with
  | same hfigure => rw [hfigure]
  | flat horigin hcommand | curved horigin hcommand =>
    rw [horigin, hcommand]
    rfl

lemma RespellsAll.of_figures {hand : Hand} {origins others commands : List Command}
    (h : RespellsAll hand origins commands)
    (hfigures : figures value hand.toPlace others = figures value hand.toPlace origins) :
    RespellsAll hand others commands := by
  induction h generalizing others with
  | nil hand =>
    cases others with
    | nil => exact .nil hand
    | cons other rest => cases hfigures
  | @cons hand origin command origins commands head _ ih =>
    cases others with
    | nil => cases hfigures
    | cons other rest =>
      obtain ⟨hfirst, htail⟩ := List.cons.inj hfigures
      have hfigure : hand.figure other = hand.figure origin := hfirst
      have hplace : (hand.after command).toPlace = hand.toPlace.after (hand.figure origin) := head.place.symm
      rw [hfirst] at htail
      refine .cons ?_ (ih (hplace ▸ htail))
      cases head with
      | same horigin => exact .same (hfigure.trans horigin)
      | flat horigin hcommand hseen => exact .flat (hfigure.trans horigin) hcommand hseen
      | curved horigin hcommand hfirst hlead =>
        exact .curved (hfigure.trans horigin) hcommand hfirst hlead

lemma value_reread {x : Binary64} (hx : x.isFinite) : x.reread.value = x.value :=
  ((equals_iff hx (isFinite_reread hx)).mp (equals_reread hx)).symm

lemma figure_congr_values {command other : Command} (hcommand : command.WellFormed)
    (hother : other.WellFormed) (hletter : other.letter = command.letter)
    (hvalues : other.operands.map value = command.operands.map value) (place : Place) :
    figure value place other = figure value place command := by
  obtain ⟨⟨kind, absolute⟩, operands, closes, text⟩ := command
  obtain ⟨letter, others, closes', text'⟩ := other
  obtain rfl : letter = ⟨kind, absolute⟩ := hletter
  have hops : Operands kind operands := hcommand.operands
  have hothers : Operands kind others := hother.operands
  cases hops <;> cases hothers <;> simp_all [figure, Command.kind, Command.absolute]

/-- The same command but for the signs of its zeros. -/
structure Level (command other : Command) : Prop where
  letter : other.letter = command.letter
  proper : other.Proper
  values : other.operands.map value = command.operands.map value

lemma Level.figure {command other : Command} (h : Level command other) (hproper : command.Proper)
    (place : Place) : figure value place other = figure value place command :=
  figure_congr_values hproper.1 h.proper.1 h.letter h.values place

lemma level_reread {command : Command} (hproper : command.Proper) : Level command command.reread := by
  refine ⟨rfl, ⟨Command.length_reread hproper.1, fun y hy => ?_⟩, ?_⟩
  · obtain ⟨x, hx, rfl⟩ := List.mem_map.mp hy
    exact isFinite_reread (hproper.2 x hx)
  · rw [Command.reread, List.map_map]
    exact List.map_congr_left fun x hx => value_reread (hproper.2 x hx)

lemma figure_reread {command : Command} (hproper : command.Proper) (place : Place) :
    figure value place command.reread = figure value place command :=
  (level_reread hproper).figure hproper place

lemma alike_lowered {command : Command} (hproper : command.Proper) : Alike command command.lowered := by
  rw [Command.lowered]
  split
  · next h =>
    exact ⟨h.symm, fun place => (figure_of_close rfl place).trans (figure_of_close h place).symm⟩
  · exact ⟨rfl, figure_reread hproper⟩

lemma alike_markClosed (commands : List Command) : List.Forall₂ Alike commands (markClosed commands) := by
  induction commands with
  | nil => exact .nil
  | cons command rest ih =>
    refine .cons ?_ ih
    split
    · exact ⟨rfl, fun _ => rfl⟩
    · exact ⟨rfl, fun _ => rfl⟩

lemma head_close_congr {r : Command → Command → Prop} {xs ys : List Command}
    (h : List.Forall₂ r xs ys) (hkind : ∀ x y, r x y → (x.kind = .close ↔ y.kind = .close)) :
    (xs.head?.any fun next => next.kind == .close) = ys.head?.any fun next => next.kind == .close := by
  cases h with
  | nil => rfl
  | cons head _ =>
    rw [List.head?_cons, List.head?_cons, Option.any_some, Option.any_some, Bool.eq_iff_iff,
      beq_iff_eq, beq_iff_eq]
    exact hkind _ _ head

lemma forall₂_singleCloses {r : Command → Command → Prop} {xs ys : List Command}
    (h : List.Forall₂ r xs ys) (hkind : ∀ x y, r x y → (x.kind = .close ↔ y.kind = .close)) :
    List.Forall₂ r (singleCloses xs) (singleCloses ys) := by
  induction h with
  | nil => exact .nil
  | @cons x y xs ys head tail ih =>
    have hclose : (x.kind == .close) = (y.kind == .close) := by
      rw [Bool.eq_iff_iff, beq_iff_eq, beq_iff_eq]
      exact hkind x y head
    rw [singleCloses, singleCloses, hclose, head_close_congr tail hkind]
    split
    · exact ih
    · exact .cons head ih

/-- What is printed for a command; a close has no text of its own. -/
structure Prints (config : Config) (origin command : Command) : Prop where
  text : command.kind ≠ .close → chosenText config origin = chosenText config command
  closes : origin.closesSubpath = command.closesSubpath
  kind : origin.kind = .close ↔ command.kind = .close

lemma forall₂_foldCloses {config : Config} {origins commands : List Command}
    (h : List.Forall₂ (Prints config) origins commands) :
    List.Forall₂ (fun o c => chosenText config o = chosenText config c ∧ o.closesSubpath = c.closesSubpath)
      (foldCloses origins) (foldCloses commands) := by
  induction h with
  | nil => exact .nil
  | @cons origin command origins commands head tail ih =>
    by_cases hclose : command.kind = .close
    · rwa [foldCloses_close hclose, foldCloses_close (head.kind.mpr hclose)]
    · rw [foldCloses_cons hclose, foldCloses_cons fun h => hclose (head.kind.mp h),
        head_close_congr tail fun _ _ => Prints.kind]
      refine .cons ?_ ih
      split
      · exact ⟨head.text hclose, rfl⟩
      · exact ⟨head.text hclose, head.closes⟩

lemma serializeFrom_congr {config : Config} {origins commands : List Command}
    (h : List.Forall₂ (fun o c => chosenText config o = chosenText config c ∧
      o.closesSubpath = c.closesSubpath) origins commands) (letter : Option Char) (closed : Bool) :
    serializeFrom config letter closed origins = serializeFrom config letter closed commands := by
  induction h generalizing letter closed with
  | nil => rfl
  | cons head _ ih => simp only [serializeFrom, head.1, head.2, ih]

lemma serialize_prints {config : Config} {origins commands : List Command}
    (h : List.Forall₂ (Prints config) origins commands) :
    serialize config origins = serialize config commands :=
  serializeFrom_congr (forall₂_foldCloses h) none false

lemma exists_prints {config : Config} {hand : Hand} {command : Command} (hproper : command.Proper)
    (h : Keeps config.devmode hand command) :
    ∃ origin, Respells hand origin command ∧ Prints config origin command ∧ (origin.Proper ∧
      origin.Bare) ∧ (config.keepSmallerCommand = false → Alike command origin) := by
  have hself : chosenText config command = command.text config.devmode →
      ∃ origin, Respells hand origin command ∧ Prints config origin command ∧ (origin.Proper ∧
        origin.Bare) ∧ (config.keepSmallerCommand = false → Alike command origin) := fun htext =>
    ⟨{ command with absoluteText := none }, .same rfl, ⟨fun _ => htext.symm, rfl, Iff.rfl⟩,
      ⟨hproper, h.openEnd, rfl⟩, fun _ => ⟨rfl, fun _ => rfl⟩⟩
  obtain htext | ⟨text, hkept, htext, hkeeps, -⟩ := chosenText_present_or_kept config command
  · exact hself htext
  · obtain ⟨origin, horigin, hbare, rfl, hrespells⟩ := h.kept text hkept
    refine ⟨origin, hrespells, ⟨fun _ => ?_, hbare.1.trans h.openEnd.symm, hrespells.close_iff⟩,
      ⟨horigin, hbare⟩, fun hpresent => ?_⟩
    · rw [chosenText_bare config hbare, htext]
    · cases hpresent.symm.trans hkeeps

lemma exists_printed {config : Config} {hand : Hand} {commands : List Command}
    (hproper : ∀ c ∈ commands, c.Proper) (hkeeps : KeepsAll config.devmode hand commands) :
    ∃ origins, RespellsAll hand origins commands ∧
      List.Forall₂ (Prints config) origins commands ∧ (∀ o ∈ origins, o.Proper ∧ o.Bare) ∧
      (config.keepSmallerCommand = false → List.Forall₂ Alike commands origins) := by
  induction commands generalizing hand with
  | nil => exact ⟨[], .nil hand, .nil, by simp, fun _ => .nil⟩
  | cons command rest ih =>
    obtain ⟨hcommand, hrest⟩ := List.forall_mem_cons.mp hproper
    obtain ⟨origin, hrespells, hprints, horigin, halike⟩ := exists_prints hcommand hkeeps.1
    obtain ⟨origins, hall, hprinted, horigins, hallAlike⟩ := ih hrest hkeeps.2
    exact ⟨origin :: origins, .cons hrespells hall, .cons hprints hprinted,
      List.forall_mem_cons.mpr ⟨horigin, horigins⟩,
      fun hpresent => .cons (halike hpresent) (hallAlike hpresent)⟩

lemma head_singleCloses (commands : List Command) :
    ((singleCloses commands).head?.any fun next => next.kind == .close) =
      commands.head?.any fun next => next.kind == .close := by
  induction commands with
  | nil => rfl
  | cons command rest ih =>
    rw [singleCloses]
    split
    · next hboth =>
      obtain ⟨hclose, hnext⟩ := Bool.and_eq_true_iff.mp hboth
      rw [ih, hnext, List.head?_cons, Option.any_some, hclose]
    · rfl

lemma RespellsAll.drop_close {hand : Hand} {command : Command} {origins commands : List Command}
    (h : RespellsAll (hand.after command) origins commands) (hclose : command.kind = .close)
    (hnext : ∀ c ∈ commands.head?, c.kind = .close) : RespellsAll hand origins commands := by
  cases h with
  | nil => exact .nil hand
  | @cons _ origin next _ _ head tail =>
    have hkind : next.kind = .close := hnext next rfl
    rw [after_close_close hand hclose hkind] at tail
    refine .cons (.same ?_) tail
    rw [figure_close hand hkind, figure_close hand (head.close_iff.mpr hkind)]

lemma RespellsAll.kinds {hand : Hand} {origins commands : List Command}
    (h : RespellsAll hand origins commands) :
    List.Forall₂ (fun o c : Command => o.kind = .close ↔ c.kind = .close) origins commands := by
  induction h with
  | nil => exact .nil
  | cons head _ ih => exact .cons head.close_iff ih

lemma RespellsAll.singleCloses {hand : Hand} {origins commands : List Command}
    (h : RespellsAll hand origins commands) :
    RespellsAll hand (singleCloses origins) (singleCloses commands) := by
  induction h with
  | nil hand => exact .nil hand
  | @cons hand origin command origins commands head tail ih =>
    have hclose : (origin.kind == .close) = (command.kind == .close) := by
      rw [Bool.eq_iff_iff, beq_iff_eq, beq_iff_eq]
      exact head.close_iff
    rw [TersePath.singleCloses, TersePath.singleCloses, hclose,
      head_close_congr tail.kinds fun _ _ => id]
    split
    · next hboth =>
      obtain ⟨hcommand, hnext⟩ := Bool.and_eq_true_iff.mp hboth
      refine ih.drop_close (beq_iff_eq.mp hcommand) fun c hc => ?_
      rw [← head_singleCloses, Option.mem_def.mp hc] at hnext
      exact beq_iff_eq.mp hnext
    · exact .cons head ih

/-- Reading back what is printed for a path gives another spelling of it, and the same figures where
shorter spellings are not asked for. -/
theorem exists_respelling (config : Config) {commands : List Command}
    (hmove : ∀ c ∈ commands.head?, c.kind = .move) (hproper : ∀ c ∈ commands, c.Proper)
    (hkeeps : KeepsAll config.devmode {} commands) (strict : Bool) :
    ∃ printed, parse strict (serialize config commands) = .ok printed ∧
      RespellsAll {} printed (singleCloses commands) ∧
      (config.keepSmallerCommand = false →
        figures value {} printed = figures value {} (singleCloses commands)) := by
  obtain ⟨origins, hall, hprints, horigins, halike⟩ := exists_printed hproper hkeeps
  have hhead : ∀ o ∈ origins.head?, o.kind = .move := by
    cases hall with
    | nil => simp
    | @cons _ origin command _ _ head _ =>
      intro o ho
      obtain rfl : origin = o := Option.some.inj ho
      exact head.move (hproper command List.mem_cons_self) (hmove command rfl)
  have hlowered : List.Forall₂ Alike (singleCloses origins)
      ((singleCloses origins).map Command.lowered) := by
    rw [List.forall₂_map_right_iff, List.forall₂_same]
    exact fun o ho => alike_lowered (horigins o (mem_singleCloses ho)).1
  refine ⟨(singleCloses origins).map Command.lowered, ?_, hall.singleCloses.of_figures (figures_of_alike hlowered),
    fun hpresent => ?_⟩
  · rw [← serialize_prints hprints]
    exact parse_serialize_lowered config strict hhead (fun o ho => (horigins o ho).1)
      fun o ho => (horigins o ho).2
  · rw [figures_of_alike hlowered]
    exact figures_of_alike (forall₂_singleCloses (halike hpresent) fun c d h => by rw [h.kind])

end Picture

end TersePath
