import TersePath.Proofs.Run.Failure
import TersePath.Run.Deviation

namespace TersePath

/-- Scaling takes the end of a command with finite operands out of the range of numbers. -/
def Command.Overflows (command scaled : Command) : Prop :=
  command.kind ≠ .close ∧ (∀ x ∈ command.scaledOperands, x.isFinite = true) ∧
    ∃ axis, ∃ x ∈ scaled.finish? axis, x.isFinite = false

section Scaling

variable {scale : ℤ} {pen : Pen} {command other : Command} {axis : Axis}

lemma isSome_finish? (h : command.Replays other) (axis : Axis) :
    (other.finish? axis).isSome = (command.finish? axis).isSome := by
  have hplace : ∀ i : ℕ, (other.operands[i]?).isSome = (command.operands[i]?).isSome := by
    intro i
    rw [Bool.eq_iff_iff, isSome_getElem?, isSome_getElem?, h.length]
  cases axis with
  | x =>
    simp only [Command.finish?, h.kind, h.length, List.head?_eq_getElem?]
    split
    · exact hplace 0
    · rfl
    · exact hplace _
  | y =>
    simp only [Command.finish?, h.kind, h.length, List.head?_eq_getElem?]
    split
    · rfl
    · exact hplace 0
    · exact hplace _

lemma truncate?_eq_none_iff {x : Binary64} : x.truncate? = none ↔ x.isFinite = false := by
  cases x with
  | finite s n hn => exact ⟨fun h => (Option.some_ne_none _ h).elim, fun h => (Bool.noConfusion h)⟩
  | infinite s => exact ⟨fun _ => rfl, fun _ => rfl⟩
  | nan => exact ⟨fun _ => rfl, fun _ => rfl⟩

lemma follow_cases (h : command.Replays other) (pen : Pen) (scale : ℤ) (axis : Axis) :
    ((∃ moved, pen.follow scale command other axis = .ok moved) ∧
      ∀ x ∈ other.finish? axis, x.isFinite = true) ∨
    (pen.follow scale command other axis = .error .infiniteCoordinate ∧
      ∃ x ∈ other.finish? axis, x.isFinite = false) := by
  have hsome := isSome_finish? h axis
  rw [Pen.follow]
  cases hafter : other.finish? axis with
  | none =>
    refine Or.inl ⟨?_, by simp⟩
    split
    · next hbefore => cases hbefore
    · exact ⟨pen, rfl⟩
  | some result =>
    rw [hafter] at hsome
    obtain ⟨x, hbefore⟩ := Option.isSome_iff_exists.mp hsome.symm
    rw [hbefore]
    dsimp only
    cases htruncate : result.truncate? with
    | none => exact Or.inr ⟨rfl, result, rfl, truncate?_eq_none_iff.mp htruncate⟩
    | some n =>
      have hfinite : result.isFinite = true := by
        rw [← Bool.not_eq_false, ← truncate?_eq_none_iff, htruncate]
        simp
      refine Or.inl ⟨?_, by simpa using hfinite⟩
      dsimp only
      split
      · exact ⟨_, rfl⟩
      · exact ⟨_, rfl⟩

lemma scaleCommand_cases (scale : ℤ) (pen : Pen) (command : Command) :
    ((∃ moved, (scaleCommand scale pen command).2 = .ok moved) ∧
      ¬ command.Overflows (scaleCommand scale pen command).1) ∨
    ((scaleCommand scale pen command).2 = .error .infiniteCoordinate ∧
      command.Overflows (scaleCommand scale pen command).1) := by
  have hreplays := replays_scaleCommand scale pen command
  rw [scaleCommand] at hreplays ⊢
  by_cases hclose : command.kind = .close
  · rw [if_pos hclose]
    exact Or.inl ⟨⟨_, rfl⟩, fun hover => hover.1 hclose⟩
  rw [if_neg hclose] at hreplays ⊢
  by_cases hfinite : command.scaledOperands.all Binary64.isFinite = true
  · rw [if_pos hfinite] at hreplays ⊢
    dsimp only at hreplays ⊢
    have hoperands := List.all_eq_true.mp hfinite
    obtain ⟨⟨across, hx⟩, hxfinite⟩ | ⟨hx, hover⟩ := follow_cases hreplays pen scale .x
    · obtain ⟨⟨moved, hy⟩, hyfinite⟩ | ⟨hy, hover⟩ := follow_cases hreplays across scale .y
      · refine Or.inl ⟨?_, ?_⟩
        · rw [hx, Except.bind, hy]
          split
          · exact ⟨_, rfl⟩
          · exact ⟨_, rfl⟩
        · rintro ⟨-, -, axis, x, hmem, hinfinite⟩
          cases axis with
          | x => cases (hxfinite x hmem).symm.trans hinfinite
          | y => cases (hyfinite x hmem).symm.trans hinfinite
      · refine Or.inr ⟨?_, hclose, hoperands, .y, hover⟩
        rw [hx, Except.bind, hy]
        split
        · rfl
        · rfl
    · refine Or.inr ⟨?_, hclose, hoperands, .x, hover⟩
      rw [hx]
      split
      · rfl
      · rfl
  · rw [if_neg hfinite]
    exact Or.inl ⟨⟨_, rfl⟩, fun hover => hfinite (List.all_eq_true.mpr hover.2.1)⟩

def OverflowsAt (scale : ℤ) (commands : List Command) : Prop :=
  ∃ pair ∈ commands.zip (applyScale scale commands).1, pair.1.Overflows pair.2

lemma scaleFrom_cases (scale : ℤ) (pen : Pen) (commands : List Command) :
    ((scaleFrom scale pen commands).2 = none ∧
      ¬ ∃ pair ∈ commands.zip (scaleFrom scale pen commands).1, pair.1.Overflows pair.2) ∨
    ((scaleFrom scale pen commands).2 = some .infiniteCoordinate ∧
      ∃ pair ∈ commands.zip (scaleFrom scale pen commands).1, pair.1.Overflows pair.2) := by
  induction commands generalizing pen with
  | nil => exact Or.inl ⟨rfl, by simp⟩
  | cons command rest ih =>
    obtain ⟨⟨moved, hmoved⟩, hkept⟩ | ⟨hfault, hover⟩ := scaleCommand_cases scale pen command
    · have hscaled : scaleCommand scale pen command = ((scaleCommand scale pen command).1, .ok moved) :=
        Prod.ext rfl hmoved
      rw [scaleFrom, hscaled]
      dsimp only
      obtain ⟨hnone, hrest⟩ | ⟨hsome, pair, hpair, hover⟩ := ih moved
      · refine Or.inl ⟨hnone, ?_⟩
        rintro ⟨pair, hpair, hover⟩
        rw [List.zip_cons_cons] at hpair
        rcases List.mem_cons.mp hpair with rfl | hpair
        · exact hkept hover
        · exact hrest ⟨pair, hpair, hover⟩
      · exact Or.inr ⟨hsome, pair, List.mem_cons_of_mem _ hpair, hover⟩
    · have hscaled : scaleCommand scale pen command =
          ((scaleCommand scale pen command).1, .error .infiniteCoordinate) := Prod.ext rfl hfault
      rw [scaleFrom, hscaled]
      exact Or.inr ⟨rfl, _, List.mem_cons_self, hover⟩

lemma applyScale_fails_iff (scale : ℤ) (commands : List Command) (fault : Fault) :
    (applyScale scale commands).2 = some fault ↔
      OverflowsAt scale commands ∧ fault = .infiniteCoordinate := by
  obtain ⟨hnone, hfine⟩ | ⟨hsome, hover⟩ := scaleFrom_cases scale {} commands
  · have happly : (applyScale scale commands).2 = none := hnone
    rw [happly]
    exact iff_of_false (Option.some_ne_none fault).symm fun h => hfine h.1
  · have happly : (applyScale scale commands).2 = some .infiniteCoordinate := hsome
    rw [happly, Option.some_inj]
    exact ⟨fun h => ⟨hover, h.symm⟩, fun h => h.2.symm⟩

end Scaling

section Runs

variable {run : Run}

lemma runPasses_cons_fault {pass : Pass} {rest : List Pass} {fault : Fault}
    (h : (pass.apply run).2 = some fault) :
    (Registry.runPasses (pass :: rest) run).2 = some fault := by
  have hstopped : pass.apply run = ((pass.apply run).1, some fault) := Prod.ext rfl h
  rw [Registry.runPasses, hstopped]

lemma runPasses_cons_fine {pass : Pass} {rest : List Pass} {mid : Run} (h : pass.apply run = (mid, none)) :
    Registry.runPasses (pass :: rest) run =
      Registry.runPasses rest { mid with completed := mid.completed ++ [pass.id] } := by
  rw [Registry.runPasses, h]

lemma fault_readTokens {fault : PathFault}
    (h : tokenize run.config.strictNumbers (normalizeSeparators run.raw) = .error fault) :
    run.readTokens.2 = some (.path fault) := by
  simp only [Run.readTokens]
  split
  · next tokens htokens => cases h.symm.trans htokens
  · next found hfound =>
    obtain rfl := Except.error.inj (h.symm.trans hfound)
    rfl

lemma fault_readCommands {fault : PathFault} (h : commandsOf run.tokens = .error fault) :
    run.readCommands.2 = some (.path fault) := by
  rw [Run.readCommands, h]

lemma fault_scaleCommands (run : Run) (h : run.element = none) : run.scaleCommands.2 =
    (applyScale (resolveScale run.commands run.config.maxDecimalPlaces) run.commands).2 := by
  simp only [Run.scaleCommands]
  split
  · rfl
  · next hnone =>
    rw [Option.not_isSome_iff_eq_none.mp hnone]
    split
    · simp only [Run.compensate, Run.report, h]
    · rfl

theorem fault_optimize (text : List Char) (config : Config) : (optimize text config none).2 =
    match parse config.strictNumbers text with
    | .error fault => some (.path fault)
    | .ok commands =>
      (applyScale (resolveScale commands config.maxDecimalPlaces) commands).2 := by
  rw [optimize_eq, parse, Pass.standard]
  cases htokens : tokenize config.strictNumbers (normalizeSeparators text) with
  | error fault => exact runPasses_cons_fault (fault_readTokens htokens)
  | ok tokens =>
    obtain ⟨run1, h1⟩ := exists_readTokens
      (({ raw := text, config, element := none } : Run).report [.queued Pass.standard.length]) htokens
    obtain ⟨htokens1, hframe1⟩ := readTokens_ok h1
    obtain rfl : run1.tokens = tokens := Except.ok.inj (htokens1.symm.trans htokens)
    rw [runPasses_cons_fine h1]
    cases hcommands : (Except.ok run1.tokens).bind commandsOf with
    | error fault => exact runPasses_cons_fault (fault_readCommands hcommands)
    | ok commands =>
      obtain ⟨run2, h2⟩ := exists_readCommands
        { run1 with completed := run1.completed ++ ["P01"] } hcommands
      obtain ⟨hcommands2, hframe2⟩ := readCommands_ok h2
      obtain rfl : run2.commands = commands := Except.ok.inj (hcommands2.symm.trans hcommands)
      have hconfig : run2.config = config := hframe2.config.trans hframe1.config
      have helement : run2.element = none := hframe2.element.trans hframe1.element
      have hscaled := fault_scaleCommands { run2 with completed := run2.completed ++ ["P02"] } helement
      rw [runPasses_cons_fine h2]
      dsimp only at hscaled ⊢
      rw [← hconfig, ← hscaled]
      rcases hrun3 : Run.scaleCommands { run2 with completed := run2.completed ++ ["P02"] } with
        ⟨run3, _ | fault⟩
      · rw [runPasses_cons_fine hrun3]
        exact runPasses_of_total later_total _
      · exact runPasses_cons_fault (congrArg Prod.snd hrun3)

end Runs

lemma optimizeVerbosely_quiet (text : List Char) (config : Config) (element : Option Element) :
    optimizeVerbosely text { config with devmode := false } element =
      optimize text { config with devmode := false } element := by
  rw [optimizeVerbosely]
  rcases optimize text { config with devmode := false } element with ⟨run, _ | fault⟩
  · rfl
  · rfl

/-- A run over a path alone fails of a text that is no path, or of the end of a command that the scale takes
out of the range of numbers, and of nothing else. -/
theorem optimize_fails_iff (text : List Char) (config : Config) :
    let quiet := { config with devmode := false }
    Guarded.optimize text quiet none = some (optimizeVerbosely text quiet none) ∧
    ∀ fault, (optimizeVerbosely text quiet none).2 = some fault ↔
      (∃ reason, parse config.strictNumbers text = .error reason ∧ fault = .path reason) ∨
      ∃ commands, parse config.strictNumbers text = .ok commands ∧
        OverflowsAt (resolveScale commands config.maxDecimalPlaces) commands ∧
        fault = .infiniteCoordinate := by
  intro quiet
  rw [optimizeVerbosely_quiet, fault_optimize]
  refine ⟨Guarded.optimize_eq text quiet none, fun fault => ?_⟩
  change (match parse config.strictNumbers text with
    | .error fault => some (.path fault)
    | .ok commands =>
      (applyScale (resolveScale commands config.maxDecimalPlaces) commands).2) = some fault ↔ _
  cases parse config.strictNumbers text with
  | error reason =>
    constructor
    · intro h
      exact Or.inl ⟨reason, rfl, (Option.some.inj h).symm⟩
    · rintro (⟨_, hreason, rfl⟩ | ⟨_, hcommands, -⟩)
      · rw [Except.error.inj hreason]
      · cases hcommands
  | ok commands =>
    dsimp only
    rw [applyScale_fails_iff]
    constructor
    · intro h
      exact Or.inr ⟨commands, rfl, h⟩
    · rintro (⟨_, hreason, -⟩ | ⟨_, hcommands, h⟩)
      · cases hreason
      · obtain rfl := Except.ok.inj hcommands
        exact h

/-- A path may fail of its numbers, all of them finite. -/
theorem optimize_leaving_fails :
    (optimizeVerbosely Example.leaving {} none).2 = some .infiniteCoordinate ∧
    ∀ reason, (optimizeVerbosely Example.leaving {} none).2 ≠ some (.path reason) := by
  have hfault : (optimizeVerbosely Example.leaving {} none).2 = some .infiniteCoordinate := by
    have hquiet : optimizeVerbosely Example.leaving {} none = optimize Example.leaving {} none :=
      optimizeVerbosely_quiet Example.leaving {} none
    rw [hquiet, optimize_eq]
    decide +kernel
  refine ⟨hfault, fun reason h => ?_⟩
  cases hfault.symm.trans h

end TersePath
