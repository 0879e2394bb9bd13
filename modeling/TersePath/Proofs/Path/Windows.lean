import TersePath.Proofs.Number.Sign
import TersePath.Proofs.Path.Confined

/-! Windows of a path: each command with the one before it and the one after it. Of the command after it
an edit sees only whether it is smooth, and so a sweep of edits that drop and merge leaves every window
as it should be if each single edit does. -/

namespace TersePath

def Windows (ok : Option Command → Command → Option Command → Prop) :
    Option Command → List Command → Prop
  | _, [] => True
  | previous, command :: rest => ok previous command rest.head? ∧ Windows ok (some command) rest

def Still (edit : Option Command → Command → Option Command → Edit) (previous : Option Command)
    (command : Command) (next : Option Command) : Prop :=
  edit previous command next = .keep

def SeesFollower (ok : Option Command → Command → Option Command → Prop) : Prop :=
  ∀ previous command next other, Command.follower? next = Command.follower? other →
    ok previous command next → ok previous command other

/-- An edit that drops and merges only, and puts nothing else before a command than was there. -/
structure Shortens (edit : Option Command → Command → Option Command → Edit) : Prop where
  present : ∀ previous command next other, edit previous command next ≠ .replace other
  alone : ∀ command next other, edit none command next ≠ .merge other
  follower : ∀ before command next other, edit (some before) command next = .merge other →
    Command.follower? (some other) = Command.follower? (some before)

section Windows

variable {ok : Option Command → Command → Option Command → Prop}
  {edit : Option Command → Command → Option Command → Edit}
  {before previous : Option Command} {commands : List Command}

lemma sweep_of_still (h : Windows (Still edit) previous commands) :
    sweep edit previous commands = previous.toList ++ commands := by
  induction commands generalizing previous with
  | nil => rw [sweep, List.append_nil]
  | cons command rest ih =>
    have hkeep : edit previous command rest.head? = .keep := h.1
    rw [sweep, hkeep]
    exact congrArg (previous.toList ++ ·) (ih h.2)

lemma Windows.imp {other : Option Command → Command → Option Command → Prop}
    (h : Windows ok previous commands) (himp : ∀ p c n, ok p c n → other p c n) :
    Windows other previous commands := by
  induction commands generalizing previous with
  | nil => trivial
  | cons command rest ih => exact ⟨himp _ _ _ h.1, ih h.2⟩

lemma Windows.and {other : Option Command → Command → Option Command → Prop}
    (h : Windows ok previous commands) (hother : Windows other previous commands) :
    Windows (fun p c n => ok p c n ∧ other p c n) previous commands := by
  induction commands generalizing previous with
  | nil => trivial
  | cons command rest ih => exact ⟨⟨h.1, hother.1⟩, ih h.2 hother.2⟩

lemma Windows.after (h : Windows ok before commands)
    (hfirst : ∀ command next, ok before command next → ok previous command next) :
    Windows ok previous commands := by
  cases commands with
  | nil => trivial
  | cons command rest => exact ⟨hfirst _ _ h.1, h.2⟩

lemma follower_sweep (hedit : Shortens edit) (command : Command) (commands : List Command) :
    Command.follower? (sweep edit (some command) commands).head? =
      Command.follower? (some command) := by
  induction commands generalizing command with
  | nil => rfl
  | cons next rest ih =>
    rw [sweep]
    split
    · rfl
    · rfl
    · exact ih command
    · next other hmerge => exact (ih other).trans (hedit.follower _ _ _ _ hmerge)

theorem windows_sweep (hedit : Shortens edit) (hok : SeesFollower ok)
    (hdrop : ∀ before previous command rest, edit previous command rest.head? = .drop →
      Windows ok before (previous.toList ++ command :: rest) →
      Windows ok before (previous.toList ++ rest))
    (hmerge : ∀ before previous command rest other,
      edit (some previous) command rest.head? = .merge other →
      Windows ok before (previous :: command :: rest) → Windows ok before (other :: rest))
    (h : Windows ok before (previous.toList ++ commands)) :
    Windows ok before (sweep edit previous commands) := by
  induction commands generalizing before previous with
  | nil => rwa [List.append_nil] at h
  | cons command rest ih =>
    cases hcase : edit previous command rest.head? with
    | replace other => exact absurd hcase (hedit.present _ _ _ _)
    | drop =>
      rw [sweep, hcase]
      exact ih (hdrop _ _ _ _ hcase h)
    | merge other =>
      rw [sweep, hcase]
      cases previous with
      | none => exact absurd hcase (hedit.alone _ _ _)
      | some previous =>
        have hrest : Windows ok before ((some other).toList ++ rest) := hmerge _ _ _ _ _ hcase h
        exact ih hrest
    | keep =>
      rw [sweep, hcase]
      cases previous with
      | none =>
        have hrest : Windows ok before ((some command).toList ++ rest) := h
        exact ih hrest
      | some previous =>
        have hrest : Windows ok (some previous) ((some command).toList ++ rest) := h.2
        exact ⟨hok _ _ _ _ (follower_sweep hedit command rest).symm h.1, ih hrest⟩

/-- After a sweep there is nothing left to edit, if what is dropped or merged opens no new place. -/
theorem windows_still (hedit : Shortens edit) (hok : SeesFollower (Still edit))
    (hdrop : ∀ before previous command next, edit (some previous) command next = .drop →
      Still edit before previous (some command) → Still edit before previous next)
    (hmerge : ∀ before previous command next other, edit (some previous) command next = .merge other →
      Still edit before previous (some command) → Still edit before other next)
    (commands : List Command) : Windows (Still edit) none (sweep edit none commands) := by
  have hafter : ∀ (commands : List Command) (before : Option Command) (previous : Command),
      Still edit before previous commands.head? →
        Windows (Still edit) before (sweep edit (some previous) commands) := by
    intro commands
    induction commands with
    | nil => exact fun before previous h => ⟨h, trivial⟩
    | cons command rest ih =>
      intro before previous h
      cases hcase : edit (some previous) command rest.head? with
      | replace other => exact absurd hcase (hedit.present _ _ _ _)
      | drop =>
        rw [sweep, hcase]
        exact ih _ _ (hdrop _ _ _ _ hcase h)
      | merge other =>
        rw [sweep, hcase]
        exact ih _ _ (hmerge _ _ _ _ _ hcase h)
      | keep =>
        rw [sweep, hcase]
        exact ⟨hok _ _ _ _ (follower_sweep hedit command rest).symm h, ih _ _ hcase⟩
  induction commands with
  | nil => trivial
  | cons command rest ih =>
    cases hcase : edit none command rest.head? with
    | replace other => exact absurd hcase (hedit.present _ _ _ _)
    | merge other => exact absurd hcase (hedit.alone _ _ _)
    | drop =>
      rw [sweep, hcase]
      exact ih
    | keep =>
      rw [sweep, hcase]
      exact hafter rest none command hcase

end Windows

end TersePath
