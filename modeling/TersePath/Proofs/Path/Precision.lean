import Mathlib.Order.Bounds.Basic
import TersePath.Proofs.Number.Places
import TersePath.Proofs.Picture.Snap

namespace TersePath

open Binary64

def mostPlaces (commands : List Command) : ℕ :=
  ((commands.flatMap Command.scaledOperands).map decimalPlaces).foldr max 0

/-- A scale in which the coordinates and radii of a command have no digits after the point. -/
def Command.WholeBy (scale : ℤ) (command : Command) : Prop :=
  ∀ x ∈ command.scaledOperands, ∃ n : ℤ, scale * x.shortestValue = n

section Precision

variable {commands : List Command} {budget k : ℕ}

lemma mostPlaces_le_iff :
    mostPlaces commands ≤ k ↔ ∀ c ∈ commands, ∀ x ∈ c.scaledOperands, x.decimalPlaces ≤ k := by
  have hfoldr : ∀ places : List ℕ, places.foldr max 0 ≤ k ↔ ∀ p ∈ places, p ≤ k := by
    intro places
    induction places with
    | nil => simp
    | cons p places ih => rw [List.foldr_cons, max_le_iff, ih, List.forall_mem_cons]
  rw [mostPlaces, hfoldr, List.forall_mem_map, List.forall_mem_flatMap]

lemma neededPlaces_le_iff : neededPlaces commands budget ≤ k ↔
    ∀ c ∈ commands, ∀ x ∈ c.scaledOperands, min budget x.decimalPlaces ≤ k := by
  have hfoldl : ∀ (operands : List Binary64) (places : ℕ),
      operands.foldl (fun places x => max places (min budget x.decimalPlaces)) places ≤ k ↔
        places ≤ k ∧ ∀ x ∈ operands, min budget x.decimalPlaces ≤ k := by
    intro operands
    induction operands with
    | nil => simp
    | cons x operands ih =>
      intro places
      rw [List.foldl_cons, ih, max_le_iff, List.forall_mem_cons, and_assoc]
  rw [neededPlaces, ← List.foldl_flatMap, hfoldl, List.forall_mem_flatMap, and_iff_right (Nat.zero_le k)]

lemma neededPlaces_eq (commands : List Command) (budget : ℕ) :
    neededPlaces commands budget = min budget (mostPlaces commands) := by
  refine eq_of_forall_ge_iff fun k => ?_
  rw [neededPlaces_le_iff, min_le_iff, mostPlaces_le_iff]
  by_cases hbudget : budget ≤ k
  · simp [hbudget]
  · simp [hbudget]

theorem resolveScale_eq (commands : List Command) (budget : ℕ) :
    resolveScale commands budget = 10 ^ min budget (mostPlaces commands) := by
  rw [resolveScale, neededPlaces_eq]

lemma wholeBy_iff : (∀ c ∈ commands, c.WholeBy (10 ^ k : ℕ)) ↔ mostPlaces commands ≤ k := by
  rw [mostPlaces_le_iff]
  refine forall₂_congr fun c hc => forall₂_congr fun x hx => ?_
  rw [← integer_iff_decimalPlaces_le, shortestValue]
  push_cast
  rfl

theorem isLeast_resolveScale
    (hplaces : ∀ c ∈ commands, ∀ x ∈ c.scaledOperands, x.decimalPlaces ≤ budget) :
    IsLeast {scale : ℕ | ∃ k : ℕ, scale = 10 ^ k ∧ ∀ c ∈ commands, c.WholeBy scale}
      (resolveScale commands budget) := by
  rw [resolveScale_eq, min_eq_right (mostPlaces_le_iff.mpr hplaces)]
  refine ⟨⟨mostPlaces commands, rfl, wholeBy_iff.mpr le_rfl⟩, ?_⟩
  rintro _ ⟨k, rfl, hwhole⟩
  exact Nat.pow_le_pow_right (by norm_num) (wholeBy_iff.mp hwhole)

end Precision

end TersePath
