import TersePath.Geometry.Deviation
import TersePath.Run.Registry

namespace TersePath

namespace Run

def deviation (run : Run) : Except Fault Float := do
  let a ← Geometry.samples run.raw 32 1
  let scale := Binary64.ofInt run.scale
  let b ← Geometry.samples run.output 32 scale.toFloat
  if !scale.isFinite && !b.isEmpty then throw .integerTooLarge
  Geometry.drawingDistance a b

/-- The run with a report on its deviation. Texts that cannot be sampled are reported too. -/
def reportDeviation (run : Run) : Outcome :=
  match run.deviation with
  | .ok distance => (run.report [.deviation (Binary64.ofFloat distance)], none)
  | .error fault =>
    if fault.isUnsampleable then (run.report [.deviationUnavailable fault], none)
    else (run, some fault)

end Run

/-- The run over a path text that also reports the deviation of its output. Only what is written for
developers and has finite operands is compared. -/
def optimizeVerbosely (text : List Char) (config : Config) (element : Option Element) : Outcome :=
  match optimize text config element with
  | (run, some fault) => (run, some fault)
  | (run, none) =>
    if config.devmode && !run.output.isEmpty && run.hasFiniteOperands then run.reportDeviation
    else (run, none)

end TersePath
