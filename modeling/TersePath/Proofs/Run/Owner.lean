import TersePath.Proofs.Run.Outcome

namespace TersePath

/-- The names under which shortening a path writes. -/
def writableNames : List String := ["d", "transform", "stroke-width"]

namespace Attributes

def others (attributes : Attributes) : Attributes :=
  { attributes with given := attributes.given.filter fun entry => entry.1 ∉ writableNames }

lemma filter_put {name : String} (h : name ∈ writableNames) (value : String)
    (entries : List (String × String)) :
    (put name value entries).filter (fun entry => entry.1 ∉ writableNames) =
      entries.filter fun entry => entry.1 ∉ writableNames := by
  induction entries with
  | nil => simp [put, h]
  | cons entry rest ih =>
    rw [put]
    split
    · next hname =>
      rw [List.filter_cons_of_neg (by simpa using h), List.filter_cons_of_neg (by simpa [hname] using h)]
    · rw [List.filter_cons, List.filter_cons, ih]

lemma others_set {name : String} (h : name ∈ writableNames) (attributes : Attributes) (value : String) :
    (attributes.set name value).others = attributes.others := by
  rw [others, others, set, filter_put h]

end Attributes

/-- All of an element that no run may change, its ancestors among it. -/
def Element.lasting (element : Element) : Element := { element with attributes := element.attributes.others }

lemma lasting_set {name : String} (h : name ∈ writableNames) (element : Element) (value : String) :
    (element.set name value).lasting = element.lasting := by
  rw [Element.lasting, Element.lasting, Element.set, Attributes.others_set h]

lemma lasting_element_compensate (element : Element) (scale : ℤ) :
    (element.compensate scale).1.lasting = element.lasting := by
  have hmoved : ∀ transform, (element.withTransform transform).lasting = element.lasting := by
    intro transform
    exact lasting_set (by simp [writableNames]) element _
  rw [Element.compensate]
  split
  · rfl
  · dsimp only
    split
    · split
      · exact hmoved _
      · exact (lasting_set (by simp [writableNames]) _ _).trans (hmoved _)
    · exact hmoved _

lemma lasting_run_compensate (run : Run) :
    run.compensate.1.element.map Element.lasting = run.element.map Element.lasting := by
  rw [Run.compensate]
  split
  · rfl
  · next element helement =>
    rw [helement]
    exact congrArg some (lasting_element_compensate element _)

lemma lasting_scaleCommands (run : Run) :
    run.scaleCommands.1.element.map Element.lasting = run.element.map Element.lasting := by
  simp only [Run.scaleCommands]
  split
  · rfl
  · split
    · exact lasting_run_compensate _
    · rfl

lemma lasting_pass {pass : Pass} (h : pass ∈ Pass.standard) (run : Run) :
    (pass.apply run).1.element.map Element.lasting = run.element.map Element.lasting := by
  simp only [Pass.standard, List.mem_cons, List.not_mem_nil, or_false] at h
  obtain rfl | rfl | rfl | rfl | rfl | rfl := h
  · simp only [Run.readTokens]
    split
    · rfl
    · rfl
  · simp only [Run.readCommands]
    split
    · rfl
    · rfl
  · exact lasting_scaleCommands run
  · simp only [Run.makeRelative]
    split
    · rfl
    · rfl
  · rfl
  · rfl

lemma lasting_runPasses {passes : List Pass} (h : ∀ pass ∈ passes, pass ∈ Pass.standard) (run : Run) :
    (Registry.runPasses passes run).1.element.map Element.lasting = run.element.map Element.lasting := by
  induction passes generalizing run with
  | nil => rfl
  | cons pass rest ih =>
    obtain ⟨hpass, hrest⟩ := List.forall_mem_cons.mp h
    have hstep := lasting_pass hpass run
    rw [Registry.runPasses]
    split
    · next stopped _ hstopped =>
      rw [hstopped] at hstep
      exact hstep
    · next mid hmid =>
      rw [hmid] at hstep
      exact (ih hrest _).trans hstep

theorem lasting_optimize (text : List Char) (config : Config) (element : Option Element) :
    (optimize text config element).1.element.map Element.lasting = element.map Element.lasting := by
  rw [optimize_eq]
  exact lasting_runPasses (fun _ => id) _

end TersePath
