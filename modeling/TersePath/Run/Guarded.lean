import TersePath.Path.Guarded
import TersePath.Run.Session

namespace TersePath

-- powers are those of the core library, whatever else is imported
attribute [local instance (high)] instPowNat

namespace Guarded

def scaleCommands (run : Run) : Option Outcome := do
  let scale : Nat := 10 ^ (← neededPlaces run.config.maxDecimalPlaces run.commands 0)
  let (commands, fault) ← scaleFrom scale {} run.commands
  let run := { run with scale, commands }
  if fault.isSome then return (run, fault)
  else if run.rescaled then return (run.report [.rescaled scale]).compensate
  else return (run, none)

def makeRelative (run : Run) : Option Outcome :=
  if run.config.convertToRelative then do
    return ({ run with commands := ← toRelative run.config.devmode run.commands }, none)
  else some (run, none)

def simplifyCommands (run : Run) : Option Outcome := do
  let noted := (shrinkage run.commands).map fun (rule, before, after) =>
    Event.shrank rule before after
  return ({ run with commands := ← simplify run.commands }.report noted, none)

def writeOutput (run : Run) : Option Outcome := do
  return ({ run with
    output := ← (serializeChecked run.config run.commands).toOption
    commands := markClosed run.commands }, none)

def pass (run : Run) : Stage → Option Outcome
  | .tokenize => some run.readTokens
  | .normalize => some run.readCommands
  | .scale => scaleCommands run
  | .relative => makeRelative run
  | .simplify => simplifyCommands run
  | .serialize => writeOutput run

def take (run : Run) : Step → Option Outcome
  | .pass id =>
    match Registry.standard.get id with
    | .ok next => pass run next.stage
    | .error fault => some (run, some fault)
  | .feed => some (run.take .feed)
  | .configure config places => some (run.take (.configure config places))

def runPasses : List Pass → Run → Option Outcome
  | [], run => some (run, none)
  | next :: rest, run => do
    match ← pass run next.stage with
    | (run, some fault) =>
      return ({ run with faults := run.faults ++ [(next.id, fault)] }.report [.failed next.id fault],
        some fault)
    | (run, none) => runPasses rest { run with completed := run.completed ++ [next.id] }

def optimize (text : List Char) (config : Config) (element : Option Element) : Option Outcome :=
  let run : Run := { raw := text, config, element }
  match Registry.standard.order with
  | .error fault => some (run, some fault)
  | .ok passes => runPasses passes (run.report [.queued passes.length])

end Guarded

end TersePath
