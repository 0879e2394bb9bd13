import TersePath.Path.Serialize
import TersePath.Proofs.Path.Edits
import TersePath.Proofs.Path.Parse

namespace TersePath

lemma maintained_wellFormed : Maintained Command.WellFormed where
  replaces previous command other h hwell := by
    cases h with
    | straight c h hx hy => rfl
    | vertical c h hx1 hx2 hx => rfl
    | horizontal c h hy1 hy2 hy => rfl
    | spelledOut h =>
      rw [Command.WellFormed, kind_of_isOrphanSmooth h] at hwell
      exact congrArg (· + 2) hwell
    | smooth x1 y1 rest ho h hx hy =>
      rw [Command.WellFormed, kind_of_isRelative h, ho] at hwell
      exact Nat.succ_injective (Nat.succ_injective hwell)
    | flat => exact wellFormed_flat hwell
  joins before command other h hbefore hcommand := by
    cases h with
    | axis a b ha hb haxis hletter =>
      rw [Command.WellFormed, hb] at hcommand
      exact hcommand
    | moveTo hfirst hk habsolute => exact hcommand
    | moveBy hfirst hk hrelative =>
      rw [Command.WellFormed, hk] at hcommand
      rw [Command.WellFormed, hfirst] at hbefore
      change (List.zipWith _ _ _).length = before.kind.arity
      rw [List.length_zipWith, hcommand, hbefore, hfirst]
      rfl

lemma maintained_spelled : Maintained fun command => command.absoluteText ≠ some [] where
  replaces previous command other h hcommand := by
    rw [h.absoluteText]
    exact hcommand
  joins before command other h _ _ := by
    rw [h.bare.2]
    simp

/-- A command in the place of another one: of its kind and with as many operands. -/
structure Command.Replays (command other : Command) : Prop where
  kind : other.kind = command.kind
  length : other.operands.length = command.operands.length
  spelled : command.absoluteText ≠ some [] → other.absoluteText ≠ some []

lemma Command.Replays.refl (command : Command) : command.Replays command := ⟨rfl, rfl, id⟩

section Steps

lemma replays_mapOperands (f : Role → Binary64 → Binary64) (command : Command) :
    command.Replays (command.mapOperands f) :=
  ⟨rfl, List.length_mapIdx .., id⟩

lemma replays_scaleCommand (scale : ℤ) (pen : Pen) (command : Command) :
    command.Replays (scaleCommand scale pen command).1 := by
  rw [scaleCommand]
  split
  · exact .refl command
  · dsimp only
    split
    · exact replays_mapOperands (scaleOperand scale pen command.absolute) command
    · exact replays_mapOperands (fun role x => if role = .unscaled then x else x.roundScaled scale) command

lemma replays_scaleFrom (scale : ℤ) (pen : Pen) (commands : List Command) :
    List.Forall₂ Command.Replays commands (scaleFrom scale pen commands).1 := by
  induction commands generalizing pen with
  | nil => exact .nil
  | cons command rest ih =>
    have hcommand := replays_scaleCommand scale pen command
    rw [scaleFrom]
    rcases hscaled : scaleCommand scale pen command with ⟨scaled, fault | moved⟩
    · -- after a fault the rest is left as it was
      rw [hscaled] at hcommand
      exact .cons hcommand (List.forall₂_same.mpr fun c _ => .refl c)
    · rw [hscaled] at hcommand
      exact .cons hcommand (ih moved)

lemma replays_keepText (spaced : Bool) (command : Command) : command.Replays (command.keepText spaced) :=
  ⟨rfl, rfl, fun _ => by simp [Command.keepText, Command.text]⟩

lemma replays_relativeTo (spaced : Bool) (cursor : Cursor) (command : Command) :
    command.Replays ((command.keepText spaced).relativeTo cursor) :=
  ⟨rfl, List.length_mapIdx .., (replays_keepText spaced command).spelled⟩

/-- What stands for a command in a path that is made relative. -/
inductive Respelled (spaced : Bool) (command : Command) : Command → Prop
  | close (h : command.kind = .close) : Respelled spaced command command
  | kept (h : command.kind ≠ .close) : Respelled spaced command (command.keepText spaced)
  | moved (h : command.kind ≠ .close) (cursor : Cursor) (habsolute : command.absolute = true) :
    Respelled spaced command ((command.keepText spaced).relativeTo cursor)

lemma Respelled.replays {spaced : Bool} {command other : Command} (h : Respelled spaced command other) :
    command.Replays other := by
  cases h with
  | close => exact .refl command
  | kept => exact replays_keepText spaced command
  | moved _ cursor => exact replays_relativeTo spaced cursor command

lemma Respelled.closesSubpath {spaced : Bool} {command other : Command} (h : Respelled spaced command other) :
    other.closesSubpath = command.closesSubpath := by
  cases h <;> rfl

lemma Respelled.absoluteText {spaced : Bool} {command other : Command} (h : Respelled spaced command other)
    (hclose : command.kind ≠ .close) : other.absoluteText = some (command.text spaced) := by
  cases h with
  | close h => exact absurd h hclose
  | kept => rfl
  | moved => rfl

lemma respelled_relativeFrom (spaced : Bool) (cursor : Cursor) (commands : List Command) :
    List.Forall₂ (Respelled spaced) commands (relativeFrom spaced cursor commands) := by
  induction commands generalizing cursor with
  | nil => exact .nil
  | cons command rest ih =>
    rw [relativeFrom]
    refine .cons ?_ (ih _)
    split
    · next hclose => exact .close hclose
    · next hclose =>
      dsimp only
      split
      · next habsolute => exact .moved hclose cursor habsolute
      · exact .kept hclose

lemma respelled_toRelative (spaced : Bool) (commands : List Command) :
    List.Forall₂ (Respelled spaced) commands (toRelative spaced commands) := by
  cases commands with
  | nil => exact .nil
  | cons command rest =>
    rw [toRelative]
    refine .cons ?_ (respelled_relativeFrom spaced _ rest)
    split
    · next hclose => exact .close hclose
    · next hclose => exact .kept hclose

lemma replays_toRelative (spaced : Bool) (commands : List Command) :
    List.Forall₂ Command.Replays commands (toRelative spaced commands) :=
  (respelled_toRelative spaced commands).imp fun _ _ => Respelled.replays

lemma replays_markClosed (commands : List Command) :
    List.Forall₂ Command.Replays commands (markClosed commands) := by
  induction commands with
  | nil => exact .nil
  | cons command rest ih =>
    rw [markClosed]
    refine .cons ?_ ih
    split
    · exact ⟨rfl, rfl, id⟩
    · exact .refl command

end Steps

lemma exists_of_forall₂ {α β : Type} {R : α → β → Prop} {xs : List α} {ys : List β}
    (h : List.Forall₂ R xs ys) : ∀ y ∈ ys, ∃ x ∈ xs, R x y := by
  induction h with
  | nil => simp
  | @cons x y xs ys hxy _ ih =>
    refine List.forall_mem_cons.mpr ⟨⟨x, List.mem_cons_self, hxy⟩, fun z hz => ?_⟩
    obtain ⟨w, hw, hwz⟩ := ih z hz
    exact ⟨w, List.mem_cons_of_mem x hw, hwz⟩

/-- What the commands of a run are between any two of its steps. -/
structure Sound (commands : List Command) : Prop where
  wellFormed : ∀ c ∈ commands, c.WellFormed
  head : BeginsWithMove commands
  spelled : ∀ c ∈ commands, c.absoluteText ≠ some []

namespace Sound

variable {commands others : List Command}

lemma nil : Sound [] := ⟨by simp, by simp [BeginsWithMove], by simp⟩

lemma of_read (hhead : BeginsWithMove commands) (hread : ∀ c ∈ commands, c.Read) : Sound commands := by
  refine ⟨fun c hc => (hread c hc).1, hhead, fun c hc => ?_⟩
  rw [(hread c hc).2.2]
  simp

lemma replays (h : Sound commands) (hall : List.Forall₂ Command.Replays commands others) :
    Sound others := by
  have hothers : ∀ d ∈ others, ∃ c ∈ commands, c.Replays d := exists_of_forall₂ hall
  refine ⟨fun d hd => ?_, ?_, fun d hd => ?_⟩
  · obtain ⟨c, hc, hcd⟩ := hothers d hd
    exact (hcd.length.trans (h.wellFormed c hc)).trans (congrArg Kind.arity hcd.kind).symm
  · cases hall with
    | nil => exact h.head
    | @cons c d _ _ hcd _ => exact beginsWithMove_cons (hcd.kind.trans (h.head c rfl)) _
  · obtain ⟨c, hc, hcd⟩ := hothers d hd
    exact hcd.spelled (h.spelled c hc)

theorem simplify (h : Sound commands) : Sound (simplify commands) :=
  ⟨maintained_wellFormed.forall_simplify h.wellFormed, beginsWithMove_simplify h.head,
    maintained_spelled.forall_simplify h.spelled⟩

end Sound

end TersePath
