import TersePath.Proofs.Path.Guarded
import TersePath.Proofs.Run.Outcome
import TersePath.Run.Guarded
import TersePath.Run.Session

namespace TersePath

section Passes

variable {run : Run}

lemma commands_readTokens (run : Run) : run.readTokens.1.commands = run.commands := by
  simp only [Run.readTokens]
  split
  · rfl
  · rfl

lemma sound_readCommands (h : Sound run.commands) : Sound run.readCommands.1.commands := by
  rw [Run.readCommands]
  split
  · next commands hcommands =>
    obtain ⟨hhead, hread⟩ := read_of_commandsOf hcommands
    exact .of_read hhead hread
  · exact h

lemma commands_scaleCommands (run : Run) : run.scaleCommands.1.commands =
    (applyScale (resolveScale run.commands run.config.maxDecimalPlaces) run.commands).1 := by
  simp only [Run.scaleCommands]
  split
  · rfl
  · split
    · exact (compensate_frame _).1
    · rfl

lemma sound_scaleCommands (h : Sound run.commands) : Sound run.scaleCommands.1.commands := by
  rw [commands_scaleCommands]
  exact h.replays (replays_scaleFrom _ _ _)

lemma scaleCommands_eq (h : ∀ c ∈ run.commands, c.WellFormed) :
    Guarded.scaleCommands run = some run.scaleCommands := by
  rw [Guarded.scaleCommands, Guarded.neededPlaces_eq h]
  dsimp only [Option.bind_eq_bind, Option.bind_some]
  rw [Guarded.scaleFrom_eq h]
  dsimp only [Option.bind_some]
  rw [Run.scaleCommands]
  dsimp only [resolveScale, applyScale]
  split
  · rfl
  · split
    · rfl
    · rfl

lemma makeRelative_eq (h : ∀ c ∈ run.commands, c.WellFormed) :
    Guarded.makeRelative run = some run.makeRelative := by
  rw [Guarded.makeRelative, Run.makeRelative, Guarded.toRelative_eq h]
  split
  · rfl
  · rfl

lemma sound_makeRelative (h : Sound run.commands) : Sound run.makeRelative.1.commands := by
  rw [Run.makeRelative]
  split
  · exact h.replays (replays_toRelative _ _)
  · exact h

lemma simplifyCommands_eq (h : ∀ c ∈ run.commands, c.WellFormed) :
    Guarded.simplifyCommands run = some run.simplifyCommands := by
  rw [Guarded.simplifyCommands, Run.simplifyCommands, Guarded.simplify_eq h]
  rfl

lemma writeOutput_eq (h : ∀ c ∈ run.commands, c.absoluteText ≠ some []) :
    Guarded.writeOutput run = some run.writeOutput := by
  rw [Guarded.writeOutput, Run.writeOutput, Guarded.serializeChecked_eq run.config h]
  rfl

lemma sound_pass (h : Sound run.commands) {pass : Pass} (hpass : pass ∈ Pass.standard) :
    Guarded.pass run pass.stage = some (pass.apply run) ∧ Sound (pass.apply run).1.commands := by
  simp only [Pass.standard, List.mem_cons, List.not_mem_nil, or_false] at hpass
  obtain rfl | rfl | rfl | rfl | rfl | rfl := hpass
  · exact ⟨rfl, (commands_readTokens run).symm ▸ h⟩
  · exact ⟨rfl, sound_readCommands h⟩
  · exact ⟨scaleCommands_eq h.wellFormed, sound_scaleCommands h⟩
  · exact ⟨makeRelative_eq h.wellFormed, sound_makeRelative h⟩
  · exact ⟨simplifyCommands_eq h.wellFormed, h.simplify⟩
  · exact ⟨writeOutput_eq h.spelled, h.replays (replays_markClosed _)⟩

lemma mem_of_get {id : String} {pass : Pass} (h : Registry.standard.get id = .ok pass) :
    pass ∈ Pass.standard := by
  rw [Registry.get] at h
  split at h
  · next found hfound =>
    obtain rfl := Except.ok.inj h
    exact List.mem_of_find?_eq_some hfound
  · cases h

lemma take_eq (h : Sound run.commands) (step : Step) : Guarded.take run step = some (run.take step) := by
  cases step with
  | pass id =>
    rw [Guarded.take, Run.take]
    cases hget : Registry.standard.get id with
    | error fault => rfl
    | ok pass => exact (sound_pass h (mem_of_get hget)).1
  | feed => rfl
  | configure config places => rfl

lemma sound_take (h : Sound run.commands) (step : Step) : Sound (run.take step).1.commands := by
  cases step with
  | pass id =>
    rw [Run.take]
    cases hget : Registry.standard.get id with
    | error fault => exact h
    | ok pass => exact (sound_pass h (mem_of_get hget)).2
  | feed => exact h
  | configure config places =>
    rw [Run.take]
    cases config.withPlaces places with
    | error fault => exact h
    | ok config => exact h

lemma sound_session (h : Sound run.commands) (steps : List Step) :
    ∀ outcome ∈ run.session steps, Sound outcome.1.commands := by
  induction steps generalizing run with
  | nil => simp [Run.session]
  | cons step rest ih =>
    rw [Run.session]
    exact List.forall_mem_cons.mpr ⟨sound_take h step, ih (sound_take h step)⟩

def laterPasses : List String := ["P04", "P05", "P06"]

lemma take_later (run : Run) : ∀ id ∈ laterPasses, (run.take (.pass id)).2 = none := by
  have hrelative : run.makeRelative.2 = none := by
    obtain ⟨after, hafter⟩ := exists_makeRelative run
    rw [hafter]
  simp only [laterPasses, List.forall_mem_cons]
  exact ⟨hrelative, rfl, rfl, by simp⟩

lemma runPasses_eq {passes : List Pass} (hpasses : ∀ pass ∈ passes, pass ∈ Pass.standard) (run : Run)
    (h : Sound run.commands) :
    Guarded.runPasses passes run = some (Registry.runPasses passes run) := by
  induction passes generalizing run with
  | nil => rfl
  | cons pass rest ih =>
    obtain ⟨hpass, hrest⟩ := List.forall_mem_cons.mp hpasses
    obtain ⟨heq, hsound⟩ := sound_pass h hpass
    rw [Guarded.runPasses, Registry.runPasses, heq, Option.bind_eq_bind, Option.bind_some]
    rcases hmid : pass.apply run with ⟨mid, _ | fault⟩
    · rw [hmid] at hsound
      exact ih hrest _ hsound
    · rfl

end Passes

/-- No pass of a whole run asks for an operand that is not there. -/
theorem Guarded.optimize_eq (text : List Char) (config : Config) (element : Option Element) :
    Guarded.optimize text config element = some (TersePath.optimize text config element) := by
  rw [Guarded.optimize, order_standard, TersePath.optimize_eq]
  exact runPasses_eq (fun _ => id) _ .nil

/-- In a session over any text, each command has as many operands as its kind takes after every step, the
path is empty or begins with a move, and the next step, whatever it is, finds all the operands that it
takes. No pass after scaling fails. -/
theorem session_sound (text : List Char) (config : Config) (element : Option Element)
    (steps : List Step) :
    let start : Run := { raw := text, config, element }
    ∀ outcome ∈ (start, none) :: start.session steps,
      (∀ c ∈ outcome.1.commands, c.WellFormed) ∧ BeginsWithMove outcome.1.commands ∧
      (∀ step, Guarded.take outcome.1 step = some (outcome.1.take step)) ∧
      ∀ id ∈ laterPasses, (outcome.1.take (.pass id)).2 = none := by
  intro start outcome houtcome
  have hsound : Sound outcome.1.commands := by
    rcases List.mem_cons.mp houtcome with rfl | houtcome
    · exact .nil
    · exact sound_session .nil steps outcome houtcome
  exact ⟨hsound.wellFormed, hsound.head, take_eq hsound, take_later outcome.1⟩

end TersePath
