import TersePath.Run.Pass

namespace TersePath

/-- Passes with different ids, in the order in which they were registered. -/
structure Registry where
  passes : List Pass := []

namespace Registry

def size (registry : Registry) : Nat := registry.passes.length

def find? (registry : Registry) (id : String) : Option Pass :=
  registry.passes.find? fun pass => pass.id = id

def get (registry : Registry) (id : String) : Except Fault Pass :=
  match registry.find? id with
  | some pass => .ok pass
  | none => .error (.unknownPass id)

def register (registry : Registry) (pass : Pass) : Except Fault Registry :=
  if (registry.find? pass.id).isSome then .error (.duplicatePass pass.id)
  else .ok { registry with passes := registry.passes ++ [pass] }

def checkDependencies (registry : Registry) (before : List String) (pass : Pass) :
    List String → Except Fault Unit
  | [] => .ok ()
  | dependency :: rest =>
    if (registry.find? dependency).isNone then .error (.unknownDependency pass.id dependency)
    else if !before.contains dependency then
      .error (.lateDependency pass.id pass.stage dependency)
    else registry.checkDependencies before pass rest

def checkOrder (registry : Registry) (before : List String) : List Pass → Except Fault Unit
  | [] => .ok ()
  | pass :: rest =>
    match registry.checkDependencies before pass pass.dependencies with
    | .error fault => .error fault
    | .ok () => registry.checkOrder (before ++ [pass.id]) rest

def order (registry : Registry) : Except Fault (List Pass) :=
  let sorted := registry.passes.mergeSort Pass.atMost
  (registry.checkOrder [] sorted).map fun _ => sorted

/-- The passes applied in turn, up to the first that fails. -/
def runPasses : List Pass → Run → Outcome
  | [], run => (run, none)
  | pass :: rest, run =>
    match pass.apply run with
    | (run, some fault) =>
      ({ run with faults := run.faults ++ [(pass.id, fault)] }.report [.failed pass.id fault],
        some fault)
    | (run, none) => runPasses rest { run with completed := run.completed ++ [pass.id] }

/-- A whole run. When the passes have no valid order, none of them runs. -/
def run (registry : Registry) (run : Run) : Outcome :=
  match registry.order with
  | .error fault => (run, some fault)
  | .ok passes => runPasses passes (run.report [.queued passes.length])

def standard : Registry := ⟨Pass.standard⟩

end Registry

def optimize (text : List Char) (config : Config) (element : Option Element) : Outcome :=
  Registry.standard.run { raw := text, config, element }

end TersePath
