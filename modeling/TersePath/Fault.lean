import TersePath.Path.Letter
import TersePath.Text.Blank
import TersePath.Text.Quoted

namespace TersePath

inductive Stage where
  | tokenize
  | normalize
  | scale
  | relative
  | simplify
  | serialize
deriving DecidableEq

namespace Stage

def number : Stage → Nat
  | tokenize => 0
  | normalize => 1
  | scale => 2
  | relative => 3
  | simplify => 4
  | serialize => 5

def name : Stage → String
  | tokenize => "TOKENIZE"
  | normalize => "NORMALIZE"
  | scale => "SCALE"
  | relative => "RELATIVE"
  | simplify => "SIMPLIFY"
  | serialize => "SERIALIZE"

def all : List Stage := [tokenize, normalize, scale, relative, simplify, serialize]

def ofName? (name : String) : Option Stage := all.find? fun stage => stage.name = name

end Stage

inductive PathFault where
  | noLeadingLetter (text : List Char)
  | unknownCommand (text : List Char)
  | malformedNumber (field : List Char)
  | operandsOfClose (token : List Char)
  | operandCount (letter : Letter) (count : Nat) (token : List Char)
  | noLeadingMove (token : List Char)
  /-- A pass of the caller's own refuses the path. -/
  | refused (reason : String) (token : List Char)
deriving DecidableEq

namespace PathFault

def reason : PathFault → String
  | noLeadingLetter _ => "path data must start with a command letter"
  | unknownCommand _ => "unknown path command"
  | malformedNumber _ => "malformed number"
  | operandsOfClose _ => "close command takes no operands"
  | operandCount letter count _ =>
    "'" ++ letter.char.toString ++ "' expects a multiple of " ++ letter.kind.arity.repr ++
      " operands, got " ++ count.repr
  | noLeadingMove _ => "path data must begin with a move"
  | refused reason _ => reason

def token : PathFault → List Char
  | noLeadingLetter text => text
  | unknownCommand text => text
  | malformedNumber field => field
  | operandsOfClose token => token
  | operandCount _ _ token => token
  | noLeadingMove token => token
  | refused _ token => token

def message (fault : PathFault) : String :=
  if fault.token.isEmpty then fault.reason
  else fault.reason ++ ": " ++ String.ofList (quoted fault.token)

end PathFault

def countWords (text : List Char) : Nat :=
  ((text.splitBy fun a b => isBlank a == isBlank b).filter fun piece => !piece.all isBlank).length

inductive Fault where
  | path (fault : PathFault)
  | infiniteCoordinate
  | integerTooLarge
  | decimalOverflow
  | divisionByZero
  | negativePlaces
  | duplicatePass (id : String)
  | unknownPass (id : String)
  | unknownDependency (id dependency : String)
  | lateDependency (id : String) (stage : Stage) (dependency : String)
  | unsampleable (text : List Char)
  | misplacedLetter (letter : Char)
  | operandsWithoutLetter (text : List Char) (left : Nat)
  | operandsShort (letter : Letter) (left : Nat) (text : List Char)
  | negativeSamples (count : Int)
  | noLeast
  | noGreatest
  | emptySpelling
  | malformedDocument
  /-- The name of an element still has a colon or a brace in it. -/
  | invalidName (name : List Char)
deriving DecidableEq

def Fault.message : Fault → String
  | path fault => fault.message
  | infiniteCoordinate => "cannot convert float infinity to integer"
  | integerTooLarge => "int too large to convert to float"
  | decimalOverflow => "[<class 'decimal.Overflow'>]"
  | divisionByZero => "division by zero"
  | negativePlaces => "max_decimal_places must be >= 0"
  | duplicatePass id => "Duplicate pass ID: " ++ id
  | unknownPass id => String.ofList (quoted id.toList)
  | unknownDependency id dependency => "Pass " ++ id ++ " depends on unknown pass " ++ dependency
  | lateDependency id stage dependency =>
    "Pass " ++ id ++ " (" ++ stage.name ++ ") would run before its dependency " ++ dependency
  | unsampleable text => "cannot sample path data " ++ String.ofList (quoted (text.take 32))
  | misplacedLetter letter =>
    "could not convert string to float: " ++ String.ofList (quoted [letter])
  | operandsWithoutLetter text left =>
    let position : Int := (countWords text : Int) - left
    "Unallowed implicit command in " ++ String.ofList text ++ ", position " ++ position.repr
  | operandsShort letter left text =>
    "Invalid path string: command '" ++ { letter with absolute := true }.char.toString ++ "' expects " ++
      letter.kind.arity.repr ++ " values but only " ++ left.repr ++ " remain in " ++
      String.ofList (quoted text)
  | negativeSamples count => "Number of samples, " ++ count.repr ++ ", must be non-negative."
  | noLeast => "zero-size array to reduction operation minimum which has no identity"
  | noGreatest => "zero-size array to reduction operation maximum which has no identity"
  | emptySpelling => "string index out of range"
  | malformedDocument => "invalid SVG"
  | invalidName name => "Invalid tag name " ++ String.ofList (quoted name)

def Fault.isUnsampleable : Fault → Bool
  | unsampleable _ => true
  | misplacedLetter _ => true
  | operandsWithoutLetter _ _ => true
  | operandsShort _ _ _ => true
  | negativeSamples _ => true
  | noLeast => true
  | noGreatest => true
  | _ => false

end TersePath
