import TersePath.Path.Token

namespace TersePath

structure Command where
  letter : Letter
  operands : List Binary64
  /-- A close that follows the command is written with it. -/
  closesSubpath : Bool := false
  /-- A spelling from before the command was made relative, as long as it still says the same. -/
  absoluteText : Option (List Char) := none
deriving DecidableEq

namespace Command

def kind (command : Command) : Kind := command.letter.kind

def absolute (command : Command) : Bool := command.letter.absolute

def isRelative (command : Command) (kind : Kind) : Bool := command.letter == ⟨kind, false⟩

def WellFormed (command : Command) : Prop := command.operands.length = command.kind.arity

instance (command : Command) : Decidable command.WellFormed :=
  inferInstanceAs (Decidable (_ = _))

/-- The last pair of operands; a horizontal or vertical line moves along one axis only. -/
def finish (command : Command) : Binary64 × Binary64 :=
  match command.kind, command.operands.reverse with
  | .close, _ => (.zero, .zero)
  | .horizontal, _ => (command.operands.headD .zero, .zero)
  | .vertical, _ => (.zero, command.operands.headD .zero)
  | _, y :: x :: _ => (x, y)
  | _, _ => (.zero, .zero)

end Command

def groups {α : Type} (size : Nat) : Nat → List α → List (List α)
  | 0, _ => []
  | count + 1, xs => xs.take size :: groups size count (xs.drop size)

def Token.commands (token : Token) : Except PathFault (List Command) :=
  let letter := token.letter
  let arity := letter.kind.arity
  let count := token.operands.length
  if arity = 0 then
    if count = 0 then .ok [{ letter, operands := [] }]
    else .error (.operandsOfClose token.source)
  else if count = 0 ∨ count % arity ≠ 0 then .error (.operandCount letter count token.source)
  else
    match groups arity (count / arity) token.operands with
    | [] => .ok []
    | first :: rest =>
      .ok ({ letter, operands := first } ::
        rest.map fun operands => { letter := letter.repeated, operands })

def commandsOf (tokens : List Token) : Except PathFault (List Command) := do
  let commands ← tokens.mapM Token.commands
  match tokens with
  | [] => return []
  | token :: _ =>
    if token.letter.kind = .move then return commands.flatten
    else throw (.noLeadingMove token.source)

def readPath (text : List Char) : Except PathFault (List Command) :=
  (tokenize false (normalizeSeparators text)).bind commandsOf

end TersePath
