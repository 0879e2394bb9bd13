import TersePath.Proofs.Number.Literal
import TersePath.Path.Command

namespace TersePath

def isSpace (c : Char) : Bool := [0x9, 0xa, 0xc, 0xd, 0x20].contains c.toNat

structure Spaces where
  text : List Char
  blank : ∀ c ∈ text, isSpace c = true

structure Gap where
  before : Spaces
  comma : Bool
  after : Spaces

def Gap.text (gap : Gap) : List Char :=
  gap.before.text ++ ((if gap.comma then [','] else []) ++ gap.after.text)

inductive Argument where
  | number (literal : Literal)
  | flag (set : Bool)

namespace Argument

def text : Argument → List Char
  | number literal => literal.text
  | flag set => [if set then '1' else '0']

def value : Argument → Binary64
  | number literal => literal.decimal.toBinary64
  | flag set => if set then .ofInt 1 else .zero

def isFlag : Argument → Bool
  | number _ => false
  | flag _ => true

def isSigned : Argument → Bool
  | number literal => literal.sign != .none
  | flag _ => false

def beginsWithPoint : Argument → Bool
  | number literal => literal.sign == .none && literal.whole.isEmpty
  | flag _ => false

def endsInFraction : Argument → Bool
  | number literal => literal.exponent.isNone && !literal.fraction.isEmpty
  | flag _ => false

def hasExponent : Argument → Bool
  | number literal => literal.exponent.isSome
  | flag _ => false

/-- Whether an argument may stand right after another one by the grammar: it could not be more of it. -/
def mayTouch (before argument : Argument) : Bool :=
  argument.isSigned || before.isFlag ||
    argument.beginsWithPoint && (before.endsInFraction || before.hasExponent)

/-- Whether reading tells an argument from another one right before it. -/
def isToldFrom (before argument : Argument) : Bool :=
  argument.isSigned || argument.beginsWithPoint && before.endsInFraction

end Argument

def Kind.flags : Kind → List Bool
  | .arc => [false, false, false, true, true, false, false]
  | kind => List.replicate kind.arity false

/-- The arguments of one command, each with what separates it from the one before. -/
structure Group (kind : Kind) where
  arguments : List (Gap × Argument)
  isFlag : arguments.map (fun a => a.2.isFlag) = kind.flags

def Group.values {kind : Kind} (group : Group kind) : List Binary64 :=
  group.arguments.map fun a => a.2.value

/-- A letter with its groups of arguments, with none if it is a close. No comma follows a letter. -/
structure Segment where
  front : Spaces
  letter : Letter
  groups : List (Group letter.kind)
  isClose : groups = [] ↔ letter.kind = .close
  comma : ∀ a ∈ (groups.flatMap Group.arguments).head?, a.1.comma = false

namespace Segment

def arguments (segment : Segment) : List (Gap × Argument) := segment.groups.flatMap Group.arguments

def argumentsText (arguments : List (Gap × Argument)) : List Char :=
  arguments.flatMap fun a => a.1.text ++ a.2.text

def text (segment : Segment) : List Char :=
  segment.front.text ++ segment.letter.char :: argumentsText segment.arguments

/-- The first group belongs to the letter itself; after a move further groups draw lines. -/
def commands (segment : Segment) : List Command :=
  match segment.groups with
  | [] => [{ letter := segment.letter, operands := [] }]
  | first :: rest =>
    { letter := segment.letter, operands := first.values } ::
      rest.map fun group => { letter := segment.letter.repeated, operands := group.values }

end Segment

/-- Path data: nothing, or segments of which the first is a move. -/
structure PathData where
  segments : List Segment
  back : Spaces
  move : ∀ s ∈ segments.head?, s.letter.kind = .move

namespace PathData

def text (data : PathData) : List Char := data.segments.flatMap Segment.text ++ data.back.text

def commands (data : PathData) : List Command := data.segments.flatMap Segment.commands

def Separated (touch : Argument → Argument → Bool) (data : PathData) : Prop :=
  ∀ s ∈ data.segments, s.arguments.IsChain fun a b => b.1.text ≠ [] ∨ touch a.2 b.2 = true

instance (touch : Argument → Argument → Bool) (data : PathData) : Decidable (data.Separated touch) :=
  inferInstanceAs (Decidable (∀ s ∈ data.segments, s.arguments.IsChain _))

end PathData

end TersePath
