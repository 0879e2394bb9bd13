import TersePath.Run.Session
import TersePath.Service.Json
import TersePath.Service.Respond
import TersePath.Proofs.Number.Value
import TersePath.Proofs.Picture.Stroke
import TersePath.Proofs.Picture.Figure
import TersePath.Proofs.Path.Exact
import TersePath.Proofs.Picture.Lead
import TersePath.Proofs.Picture.Curve
import TersePath.Proofs.Picture.Simplify
import TersePath.Proofs.Number.Conversion
import TersePath.Proofs.Number.Integer
import TersePath.Proofs.Picture.Scale
import TersePath.Proofs.Number.Spelling
import TersePath.Proofs.Path.Fields
import TersePath.Proofs.Path.Separators
import TersePath.Proofs.Path.Reread
import TersePath.Proofs.Picture.Beside
import TersePath.Proofs.Picture.Grid
import TersePath.Proofs.Picture.Relative
import TersePath.Proofs.Picture.Printed
import TersePath.Proofs.Path.Head
import TersePath.Proofs.Path.Groups
import TersePath.Proofs.Path.Parse
import TersePath.Proofs.Run.Outcome
import TersePath.Proofs.Run.Picture
import TersePath.Proofs.Path.Confined
import TersePath.Proofs.Pen.Route
import TersePath.Proofs.Pen.Rules
import TersePath.Proofs.Pen.Relative
import TersePath.Proofs.Pen.Choice
import TersePath.Proofs.Pen.Scaled
import TersePath.Proofs.Pen.Level
import TersePath.Proofs.Run.Settled
import TersePath.Proofs.Number.Literal
import TersePath.Proofs.Number.Concise
import TersePath.Proofs.Path.Grammar
import TersePath.Proofs.Path.Derived
import TersePath.Proofs.Path.Pieces
import TersePath.Proofs.Number.Sign
import TersePath.Proofs.Path.Windows
import TersePath.Proofs.Path.Still
import TersePath.Proofs.Path.Fixed
import TersePath.Proofs.Path.Akin
import TersePath.Proofs.Run.Again
import TersePath.Run.Guarded
import TersePath.Proofs.Path.Edits
import TersePath.Proofs.Path.Arity
import TersePath.Proofs.Path.Guarded
import TersePath.Proofs.Run.Session
import TersePath.Proofs.Element.Compensation
import TersePath.Proofs.Run.Failure
import TersePath.Proofs.Run.Overflow
import TersePath.Proofs.Path.Length
import TersePath.Proofs.Path.Saving
import TersePath.Proofs.Path.Surplus
import TersePath.Proofs.Number.Sums
import TersePath.Proofs.Path.Steps
import TersePath.Proofs.Run.Order
import TersePath.Proofs.Pen.Converted
import TersePath.Proofs.Picture.Drift
import TersePath.Proofs.Run.Owner
import TersePath.Proofs.Document.Places
import TersePath.Proofs.Document.Paths
import TersePath.Proofs.Path.Terse
import TersePath.Proofs.Picture.Ink
import TersePath.Proofs.Path.Interruption
import TersePath.Proofs.Pen.Lossless
import TersePath.Proofs.Path.Uniform
import TersePath.Proofs.Path.Coverage
import TersePath.Proofs.Number.Nearest
import TersePath.Proofs.Path.Abreast
import TersePath.Proofs.Path.Finished
import TersePath.Proofs.Path.Recovered
import TersePath.Proofs.Run.Repeated
