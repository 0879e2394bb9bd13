import TersePath.Number.Spelling
import TersePath.Path.Command

namespace TersePath

def nextOperand (spaced : Bool) (text : List Char) : List Char :=
  if !spaced && text.head? == some '-' then text else ' ' :: text

/-- The spelling of operands; a minus sign stands for the space unless all are spaced. -/
def operandsText (spaced : Bool) : List Binary64 → List Char
  | [] => []
  | x :: rest => x.spelling ++ rest.flatMap fun y => nextOperand spaced y.spelling

def Command.text (spaced : Bool) (command : Command) : List Char :=
  command.letter.char :: operandsText spaced command.operands

end TersePath
