import TersePath.Proofs.Run.Picture

namespace TersePath

namespace Example

def axial : List Char := "M0 0c0 3 0 7 0 7s5 5 10 10".toList

end Example

/-- The cubic becomes a vertical line only after the first rule has passed, and what is left of the smooth
one is a line that only a second run finds. -/
theorem output_optimize_axial :
    ∃ run again, optimize Example.axial {} none = (run, none) ∧
      optimize run.output {} none = (again, none) ∧
      run.output = "M0 0v7s5 5 10 10".toList ∧ again.output = "M0 0v7l10 10".toList := by
  have hfirst : (optimize Example.axial {} none).2.isNone = true ∧
      (optimize Example.axial {} none).1.output = "M0 0v7s5 5 10 10".toList := by
    rw [optimize_eq]
    constructor
    · decide +kernel
    · decide +kernel
  have hsecond : (optimize "M0 0v7s5 5 10 10".toList {} none).2.isNone = true ∧
      (optimize "M0 0v7s5 5 10 10".toList {} none).1.output = "M0 0v7l10 10".toList := by
    rw [optimize_eq]
    constructor
    · decide +kernel
    · decide +kernel
  refine ⟨_, _, Example.eq_of_isNone hfirst.1, ?_, hfirst.2, hsecond.2⟩
  rw [hfirst.2]
  exact Example.eq_of_isNone hsecond.1

end TersePath
