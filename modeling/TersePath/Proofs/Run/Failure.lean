import TersePath.Proofs.Element.Compensation
import TersePath.Proofs.Run.Session

namespace TersePath

/-- What no pass that fails may change. -/
structure Run.Untouched (run after : Run) : Prop where
  element : after.element = run.element
  output : after.output = run.output
  completed : after.completed = run.completed
  faults : after.faults = run.faults

section Reading

lemma untouched_readTokens (run : Run) : run.Untouched run.readTokens.1 := by
  simp only [Run.readTokens]
  split
  · exact ⟨rfl, rfl, rfl, rfl⟩
  · exact ⟨rfl, rfl, rfl, rfl⟩

lemma untouched_readCommands (run : Run) : run.Untouched run.readCommands.1 := by
  rw [Run.readCommands]
  split
  · exact ⟨rfl, rfl, rfl, rfl⟩
  · exact ⟨rfl, rfl, rfl, rfl⟩

end Reading

section Scaling

/-- The element is the last that scaling touches, and nothing fails then. -/
lemma untouched_scaleCommands {run after : Run} {fault : Fault}
    (hwidth : ∀ e ∈ run.element, e.visibility.strokeWidth.isFinite = true)
    (h : run.scaleCommands = (after, some fault)) : run.Untouched after := by
  simp only [Run.scaleCommands] at h
  split at h
  · obtain ⟨rfl, -⟩ := Prod.mk.inj h
    exact ⟨rfl, rfl, rfl, rfl⟩
  · split at h
    · have hfault := congrArg Prod.snd h
      rw [Run.compensate] at hfault
      split at hfault
      · cases hfault
      · next element helement =>
        have hpositive : ((resolveScale run.commands run.config.maxDecimalPlaces : ℕ) : ℤ) ≠ 0 := by
          rw [resolveScale]
          exact_mod_cast pow_ne_zero _ (by decide)
        cases (compensate_succeeds (hwidth element helement) hpositive).symm.trans hfault
    · cases h

end Scaling

section Passes

variable {run after : Run} {fault : Fault}

structure Run.Stopped (run : Run) (done : List Pass) (pass : Pass) (fault : Fault) (after : Run) : Prop where
  element : after.element = run.element
  output : after.output = run.output
  completed : after.completed = run.completed ++ done.map Pass.id
  faults : after.faults = run.faults ++ [(pass.id, fault)]

lemma runPasses_cons_failed {pass : Pass} {rest : List Pass}
    (h : Registry.runPasses (pass :: rest) run = (after, some fault)) :
    (∃ stopped, pass.apply run = (stopped, some fault) ∧ after =
      { stopped with faults := stopped.faults ++ [(pass.id, fault)] }.report [.failed pass.id fault]) ∨
    ∃ mid, pass.apply run = (mid, none) ∧
      Registry.runPasses rest { mid with completed := mid.completed ++ [pass.id] } =
        (after, some fault) := by
  rw [Registry.runPasses] at h
  split at h
  · next stopped found hstopped =>
    obtain ⟨hafter, hfault⟩ := Prod.mk.inj h
    obtain rfl := Option.some.inj hfault
    exact Or.inl ⟨stopped, hstopped, hafter.symm⟩
  · next mid hmid => exact Or.inr ⟨mid, hmid, h⟩

lemma stopped_of_untouched {pass : Pass} {stopped : Run} (h : run.Untouched stopped) :
    run.Stopped [] pass fault
      ({ stopped with faults := stopped.faults ++ [(pass.id, fault)] }.report [.failed pass.id fault]) :=
  ⟨h.element, h.output, h.completed.trans (List.append_nil _).symm, congrArg (· ++ _) h.faults⟩

lemma Run.Stopped.cons {pass next : Pass} {done : List Pass} {mid : Run} (hmid : run.Untouched mid)
    (h : Run.Stopped { mid with completed := mid.completed ++ [pass.id] } done next fault after) :
    run.Stopped (pass :: done) next fault after := by
  refine ⟨h.element.trans hmid.element, h.output.trans hmid.output, ?_,
    h.faults.trans (congrArg (· ++ _) hmid.faults)⟩
  rw [h.completed, hmid.completed, List.map_cons, List.append_assoc, List.singleton_append]

lemma runPasses_of_total {passes : List Pass} (h : ∀ pass ∈ passes, ∀ run, (pass.apply run).2 = none)
    (run : Run) : (Registry.runPasses passes run).2 = none := by
  induction passes generalizing run with
  | nil => rfl
  | cons pass rest ih =>
    obtain ⟨hpass, hrest⟩ := List.forall_mem_cons.mp h
    have hmid : pass.apply run = ((pass.apply run).1, none) := Prod.ext rfl (hpass run)
    rw [Registry.runPasses, hmid]
    exact ih hrest _

/-- Passes that leave the element and the output alone, a pass that does so if it fails, and passes that do
not fail: whatever stops them stops them before anything is lost. -/
lemma stopped_of_runPasses (good : Option Element → Prop) {early later : List Pass} {pass : Pass}
    (hearly : ∀ pass ∈ early, ∀ run : Run, run.Untouched (pass.apply run).1)
    (hpass : ∀ run after fault, good run.element → pass.apply run = (after, some fault) →
      run.Untouched after)
    (hlater : ∀ pass ∈ later, ∀ run, (pass.apply run).2 = none) (hgood : good run.element)
    (h : Registry.runPasses (early ++ pass :: later) run = (after, some fault)) :
    ∃ done stop rest, early ++ [pass] = done ++ stop :: rest ∧ run.Stopped done stop fault after := by
  induction early generalizing run with
  | nil =>
    obtain ⟨stopped, hstopped, rfl⟩ | ⟨mid, -, hrest⟩ := runPasses_cons_failed h
    · exact ⟨[], pass, [], rfl, stopped_of_untouched (hpass _ _ _ hgood hstopped)⟩
    · cases (runPasses_of_total hlater _).symm.trans (congrArg Prod.snd hrest)
  | cons first early ih =>
    obtain ⟨hfirst, hearly⟩ := List.forall_mem_cons.mp hearly
    have huntouched := hfirst run
    obtain ⟨stopped, hstopped, rfl⟩ | ⟨mid, hmid, hrest⟩ := runPasses_cons_failed h
    · rw [hstopped] at huntouched
      exact ⟨[], first, early ++ [pass], rfl, stopped_of_untouched huntouched⟩
    · -- the passes after this one start from a run that it has not touched
      rw [hmid] at huntouched
      obtain ⟨done, stop, rest, heq, hstop⟩ := ih hearly (huntouched.element ▸ hgood) hrest
      exact ⟨first :: done, stop, rest, congrArg (first :: ·) heq, hstop.cons huntouched⟩

end Passes

lemma later_total : ∀ pass ∈ Pass.standard.drop 3, ∀ run, (pass.apply run).2 = none := by
  simp only [Pass.standard, List.drop_succ_cons, List.drop_zero, List.forall_mem_cons]
  refine ⟨fun run => ?_, fun _ => rfl, fun _ => rfl, by simp⟩
  obtain ⟨after, hafter⟩ := exists_makeRelative run
  exact congrArg Prod.snd hafter

def earlyPasses : List String := ["P01", "P02", "P03"]

/-- A run that fails has changed nothing on the element and has written nothing. It fails in reading or in
scaling, the passes before are the ones that it counts as done, and its one fault is that of the pass. -/
theorem failed_run (text : List Char) (config : Config) (element : Option Element)
    (hwidth : ∀ e ∈ element, e.visibility.strokeWidth.isFinite = true) :
    Guarded.optimize text config element = some (optimize text config element) ∧
    ∀ run fault, optimize text config element = (run, some fault) →
      ∃ done pass rest, Pass.standard = done ++ pass :: rest ∧ pass.id ∈ earlyPasses ∧
        run.completed = done.map Pass.id ∧ run.faults = [(pass.id, fault)] ∧
        run.element = element ∧ run.output = [] := by
  refine ⟨Guarded.optimize_eq text config element, fun run fault h => ?_⟩
  rw [optimize_eq] at h
  have hearly : ∀ pass ∈ Pass.standard.take 2, ∀ run : Run, run.Untouched (pass.apply run).1 := by
    simp only [Pass.standard, List.take_succ_cons, List.take_zero, List.forall_mem_cons]
    exact ⟨untouched_readTokens, untouched_readCommands, by simp⟩
  obtain ⟨done, pass, rest, heq, hstopped⟩ :=
    stopped_of_runPasses (fun element => ∀ e ∈ element, e.visibility.strokeWidth.isFinite = true)
      hearly (fun _ _ _ => untouched_scaleCommands) later_total hwidth h
  refine ⟨done, pass, rest ++ Pass.standard.drop 3, ?_, ?_, hstopped.completed, hstopped.faults,
    hstopped.element, hstopped.output⟩
  · rw [← List.cons_append, ← List.append_assoc, ← heq]
    rfl
  · have hmem : pass.id ∈ (Pass.standard.take 3).map Pass.id := by
      refine List.mem_map_of_mem (f := Pass.id) ?_
      have htake : Pass.standard.take 3 = done ++ pass :: rest := heq
      rw [htake]
      simp
    exact hmem

namespace Example

def leaving : List Char := "M1e308 .01".toList

def banner : Element :=
  { attributes := { given := [("stroke", "red"), ("transform", "rotate(9)")] }
    ancestors := [{ given := [("stroke-width", "2")] }] }

end Example

theorem failed_run_leaving :
    (∀ e ∈ some Example.banner, e.visibility.strokeWidth.isFinite = true) ∧
    ∃ run, optimize Example.leaving {} (some Example.banner) = (run, some .infiniteCoordinate) ∧
      ∃ done pass rest, Pass.standard = done ++ pass :: rest ∧ pass.id ∈ earlyPasses ∧
        run.completed = done.map Pass.id ∧ run.faults = [(pass.id, .infiniteCoordinate)] ∧
        run.element = some Example.banner ∧ run.output = [] := by
  have hwidth : ∀ e ∈ some Example.banner, e.visibility.strokeWidth.isFinite = true := by
    intro e he
    obtain rfl := Option.some.inj he
    decide +kernel
  have hfault : (optimize Example.leaving {} (some Example.banner)).2 = some .infiniteCoordinate := by
    rw [optimize_eq]
    decide +kernel
  have hrun : optimize Example.leaving {} (some Example.banner) =
      ((optimize Example.leaving {} (some Example.banner)).1, some .infiniteCoordinate) :=
    Prod.ext rfl hfault
  exact ⟨hwidth, _, hrun, (failed_run Example.leaving {} (some Example.banner) hwidth).2 _ _ hrun⟩

end TersePath
