import TersePath.Proofs.Path.Arity
import TersePath.Proofs.Pen.Choice

/-! What a path made relative keeps. Only the positions of the pen and the operands have to be small: a
relative command may have a control point farther away, but its operands stay as they are, and an absolute
one names its control points by its operands. -/

namespace TersePath

open Picture Binary64

namespace Picture

section Command

variable {place : Place} {command : Command}

lemma onGrid_points (hplace : place.OnGrid) (hproper : command.Proper)
    (habsolute : command.absolute = true) (hgrid : command.OnGrid) :
    ∀ p ∈ (figure value place command).points, OnGrid p := by
  refine forall_along_points (P := OnAxis) hproper.1 hplace.1.along hplace.2.along fun axis x hx => ?_
  rw [habsolute, along_base, basis_absolute, zero_add]
  exact hgrid x (Command.mem_scaledOperands_of_withRoles hx (by simp))

end Command

section Path

variable {spaced : Bool} {cursor : Cursor} {place : Place} {command result : Command}
  {commands others : List Command}

lemma figures_cons_congr (hfigure : figure value place result = figure value place command)
    (h : figures value (place.step command) others = figures value (place.step command) commands) :
    figures value place (result :: others) = figures value place (command :: commands) := by
  rw [figures, figures, hfigure]
  exact congrArg _ h

lemma advance_at (hat : cursor.At place) (hresult : result.Proper)
    (hfigure : figure value place result = figure value place command)
    (hend : OnGrid (figure value place command).target) :
    (cursor.advance result).At (place.step command) := by
  rw [Place.step, ← hfigure]
  exact hat.advance hresult (hfigure ▸ hend)

lemma onGrid_step (hplace : place.OnGrid) (hend : OnGrid (figure value place command).target) :
    (place.step command).OnGrid := by
  refine hplace.step ?_
  rw [Place.step, Place.point_after]
  exact hend

theorem figures_relativeFrom (hat : cursor.At place) (hplace : place.OnGrid)
    (hproper : ∀ c ∈ commands, c.Proper) (hgrid : ∀ c ∈ commands, c.absolute = true → c.OnGrid)
    (hends : ∀ f ∈ figures value place commands, OnGrid f.target) :
    figures value place (relativeFrom spaced cursor commands) = figures value place commands := by
  induction commands generalizing cursor place with
  | nil => rfl
  | cons command rest ih =>
    simp only [figures, List.forall_mem_cons] at hproper hgrid hends
    have hnext : ∀ result : Command, result.Proper →
        figure value place result = figure value place command →
        figures value place (result :: relativeFrom spaced (cursor.advance result) rest) =
          figures value place (command :: rest) := fun result hresult hfigure =>
      figures_cons_congr hfigure (ih (advance_at hat hresult hfigure hends.1)
        (onGrid_step hplace hends.1) hproper.2 hgrid.2 hends.2)
    rw [relativeFrom]
    by_cases hclose : command.kind = .close
    · simp only [if_pos hclose]
      exact hnext command hproper.1 rfl
    · simp only [if_neg hclose]
      cases habsolute : command.absolute with
      | false =>
        rw [if_neg Bool.false_ne_true]
        exact hnext _ hproper.1 rfl
      | true =>
        have hkept : (command.keepText spaced).Proper := hproper.1
        obtain ⟨hfigure, hrelative⟩ := figure_relativeTo hat hplace.1 hkept habsolute
          (onGrid_points hplace hproper.1 habsolute (hgrid.1 habsolute))
        rw [if_pos rfl]
        exact hnext _ hrelative hfigure

theorem figures_toRelative (hproper : ∀ c ∈ commands, c.Proper)
    (hgrid : ∀ c ∈ commands, c.absolute = true → c.OnGrid)
    (hends : ∀ f ∈ figures value {} commands, OnGrid f.target) :
    figures value {} (toRelative spaced commands) = figures value {} commands := by
  cases commands with
  | nil => rfl
  | cons command rest =>
    simp only [figures, List.forall_mem_cons] at hproper hgrid hends
    have hnext : ∀ result : Command, result.Proper → figure value {} result = figure value {} command →
        figures value {} (result :: relativeFrom spaced (Cursor.advance {} result) rest) =
          figures value {} (command :: rest) := fun result hresult hfigure =>
      figures_cons_congr hfigure (figures_relativeFrom
        (advance_at cursor_at_origin hresult hfigure hends.1) (onGrid_step onGrid_origin hends.1)
        hproper.2 hgrid.2 hends.2)
    rw [toRelative]
    by_cases hclose : command.kind = .close
    · simp only [if_pos hclose]
      exact hnext command hproper.1 rfl
    · simp only [if_neg hclose]
      exact hnext _ hproper.1 rfl

end Path

end Picture

lemma absolute_relativeFrom {spaced : Bool} {cursor : Cursor} {commands : List Command} :
    ∀ c ∈ relativeFrom spaced cursor commands, c.kind ≠ .close → c.absolute = false := by
  induction commands generalizing cursor with
  | nil => simp [relativeFrom]
  | cons command rest ih =>
    rw [relativeFrom, List.forall_mem_cons]
    refine ⟨fun hk => ?_, ih⟩
    split at hk
    · next hclose => exact absurd hclose hk
    · next hclose =>
      rw [if_neg hclose]
      dsimp only
      split
      · rfl
      · next habsolute => exact Bool.not_eq_true _ ▸ habsolute

lemma absolute_toRelative {spaced : Bool} {commands : List Command} :
    ∀ c ∈ (toRelative spaced commands).tail, c.kind ≠ .close → c.absolute = false := by
  cases commands with
  | nil => simp [toRelative]
  | cons command rest => exact absolute_relativeFrom

namespace Picture

end Picture

namespace Example

lemma onGrid_of_ofInt {commands : List Command} (values : List ℤ) (hvalues : ∀ n ∈ values, |n| < 2 ^ 52)
    (h : ∀ c ∈ commands, ∀ x ∈ c.scaledOperands, ∃ n ∈ values, x = Binary64.ofInt n) :
    ∀ c ∈ commands, c.OnGrid := by
  intro c hc x hx
  obtain ⟨n, hn, hvalue⟩ := h c hc x hx
  have hsmall := hvalues n hn
  rw [hvalue]
  exact ⟨n, (ofInt_is (natAbs_le_of_abs (hsmall.le.trans (by norm_num)))).2, hsmall⟩

end Example

end TersePath
