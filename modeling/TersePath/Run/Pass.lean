import TersePath.Path.Cursor
import TersePath.Path.Serialize
import TersePath.Run.Event

namespace TersePath

structure Run where
  raw : List Char := []
  config : Config := {}
  /-- The element that takes up a change of scale. -/
  element : Option Element := none
  normalized : List Char := []
  tokens : List Token := []
  commands : List Command := []
  scale : Nat := 1
  output : List Char := []
  completed : List String := []
  faults : List (String × Fault) := []
  events : List Event := []

namespace Run

def report (run : Run) (events : List Event) : Run := { run with events := run.events ++ events }

def rescaled (run : Run) : Bool := 1 < run.scale

def inverseScale (run : Run) : Except Fault Binary64 := Binary64.reciprocalOfRounded run.scale

def hasFiniteOperands (run : Run) : Bool :=
  run.commands.all fun command => command.operands.all Binary64.isFinite

end Run

abbrev Outcome := Run × Option Fault

namespace Run

def readTokens (run : Run) : Outcome :=
  let text := normalizeSeparators run.raw
  let noted : List Event :=
    if run.config.strictNumbers || !(text.head?.any isCommandStart) then []
    else (malformedOperands (words text)).map fun (field, token) => .malformedOperand field token
  let run := { run with normalized := text }.report noted
  match tokenize run.config.strictNumbers text with
  | .ok tokens => ({ run with tokens }, none)
  | .error fault => (run, some (.path fault))

def readCommands (run : Run) : Outcome :=
  match commandsOf run.tokens with
  | .ok commands => ({ run with commands }, none)
  | .error fault => (run, some (.path fault))

def compensate (run : Run) : Outcome :=
  match run.element with
  | none => (run, none)
  | some element =>
    let (changed, fault) := element.compensate run.scale
    let noted := (Visibility.unreadableWidths element.chain).map fun (text, inherited) =>
      Event.unreadableWidth text inherited
    ({ run with element := some changed }.report noted, fault)

def scaleCommands (run : Run) : Outcome :=
  let scale := resolveScale run.commands run.config.maxDecimalPlaces
  let (commands, fault) := applyScale scale run.commands
  let run := { run with scale, commands }
  if fault.isSome then (run, fault)
  else if run.rescaled then (run.report [.rescaled scale]).compensate
  else (run, none)

def makeRelative (run : Run) : Outcome :=
  if run.config.convertToRelative then
    ({ run with commands := toRelative run.config.devmode run.commands }, none)
  else (run, none)

def simplifyCommands (run : Run) : Outcome :=
  let noted := (shrinkage run.commands).map fun (rule, before, after) =>
    Event.shrank rule before after
  ({ run with commands := simplify run.commands }.report noted, none)

def writeOutput (run : Run) : Outcome :=
  ({ run with
    output := serialize run.config run.commands
    commands := markClosed run.commands }, none)

end Run

structure Pass where
  id : String
  stage : Stage
  dependencies : List String
  description : String
  apply : Run → Outcome

namespace Pass

def standard : List Pass :=
  [⟨"P01", .tokenize, [], "Split raw path data into command tokens", Run.readTokens⟩,
    ⟨"P02", .normalize, ["P01"], "Split multi-group tokens into atomic commands", Run.readCommands⟩,
    ⟨"P03", .scale, ["P02"], "Resolve integer scale and rescale coordinates", Run.scaleCommands⟩,
    ⟨"P04", .relative, ["P03"], "Convert absolute commands to relative form", Run.makeRelative⟩,
    ⟨"P05", .simplify, ["P04"], "Collapse degenerate segments and merge redundant commands",
      Run.simplifyCommands⟩,
    ⟨"P06", .serialize, ["P05"], "Render the shortest textual form", Run.writeOutput⟩]

def atMost (a b : Pass) : Bool :=
  a.stage.number < b.stage.number || (a.stage.number = b.stage.number && a.id ≤ b.id)

end Pass

end TersePath
