import TersePath.Config
import TersePath.Path.Spelling

/-!
Text of whole paths. A close is written with the command before it, a command in the shorter of its
spellings, and a letter that repeats the one before it is left out where a minus sign follows.
-/

namespace TersePath

def markClosed : List Command → List Command
  | [] => []
  | command :: rest =>
    let closed := command.kind != .close && rest.head?.any fun next => next.kind == .close
    (if closed then { command with closesSubpath := true } else command) :: markClosed rest

def foldCloses (commands : List Command) : List Command :=
  (markClosed commands).filter fun command => command.kind != .close

/-- The shorter spelling of a command; of two equally long ones the present one. -/
def chosenText (config : Config) (command : Command) : List Char :=
  let text := command.text config.devmode
  match command.absoluteText with
  | none => text
  | some other =>
    if config.keepSmallerCommand && other.length < text.length then other else text

/-- Whether the letter of a text can be left out after a command that begins with `letter`. -/
def omitsLetter (letter : Option Char) (closed : Bool) (text : List Char) : Bool :=
  match text with
  | c :: '-' :: _ => (c == 'c' || c == 'l') && letter == some c && !closed
  | _ => false

def serializeFrom (config : Config) (letter : Option Char) (closed : Bool) :
    List Command → List Char
  | [] => []
  | command :: rest =>
    let text := chosenText config command
    let others := serializeFrom config text.head? command.closesSubpath rest
    if config.devmode then
      '\n' :: text ++ (if command.closesSubpath then ['\n', 'z'] else []) ++ others
    else
      let short := config.removeRepeatedLetters && omitsLetter letter closed text
      (if short then text.tail else text) ++ (if command.closesSubpath then ['z'] else []) ++ others

def serialize (config : Config) (commands : List Command) : List Char :=
  serializeFrom config none false (foldCloses commands)

/-- The text of a path whose commands came with kept spellings from outside. An empty spelling has no
letter to begin with. -/
def serializeChecked (config : Config) (commands : List Command) : Except Fault (List Char) :=
  if (foldCloses commands).any fun command => (chosenText config command).isEmpty then
    .error .emptySpelling
  else .ok (serialize config commands)

end TersePath
