import TersePath.Run.Registry

/-!
Runs that are watched or steered from outside: a run with its state after each pass, passes taken in
any order over one state, and runs that are fed the output of the run before. Main statement: watching
a run does not change its outcome.
-/

namespace TersePath

def tracePasses : List Pass → Run → List (String × Run) × Outcome
  | [], run => ([], run, none)
  | pass :: rest, run =>
    match Registry.runPasses [pass] run with
    | (after, some fault) => ([], after, some fault)
    | (after, none) =>
      let (states, outcome) := tracePasses rest after
      ((pass.id, after) :: states, outcome)

theorem snd_tracePasses (passes : List Pass) (run : Run) :
    (tracePasses passes run).2 = Registry.runPasses passes run := by
  induction passes generalizing run with
  | nil => rfl
  | cons pass rest ih =>
    rcases h : pass.apply run with ⟨after, _ | fault⟩
    · simp only [tracePasses, Registry.runPasses, h]
      exact ih _
    · simp only [tracePasses, Registry.runPasses, h]

inductive Step where
  | pass (id : String)
  /-- The output becomes the text to read. -/
  | feed
  | configure (config : Config) (places : Int)

namespace Run

/-- The run after a step. A step that fails may have changed it. -/
def take (run : Run) : Step → Outcome
  | .pass id =>
    match Registry.standard.get id with
    | .ok pass => pass.apply run
    | .error fault => (run, some fault)
  | .feed => ({ run with raw := run.output }, none)
  | .configure config places =>
    match config.withPlaces places with
    | .ok config => ({ run with config }, none)
    | .error fault => (run, some fault)

/-- The outcome of each step; a session goes on after a failure. -/
def session (run : Run) : List Step → List Outcome
  | [] => []
  | step :: rest =>
    let outcome := run.take step
    outcome :: outcome.1.session rest

end Run

def Outcome.finished : Outcome → Except Fault Run
  | (run, none) => .ok run
  | (_, some fault) => .error fault

/-- Runs with the same settings, each over the output and the element of the run before it. -/
def optimizeRepeatedly (config : Config) :
    (count : Nat) → List Char → Option Element → Except Fault (List Run)
  | 0, _, _ => .ok []
  | count + 1, text, element => do
    let run ← Outcome.finished (optimize text config element)
    return run :: (← optimizeRepeatedly config count run.output run.element)

end TersePath
