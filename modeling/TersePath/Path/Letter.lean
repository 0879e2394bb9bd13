namespace TersePath

inductive Kind where
  | move
  | line
  | horizontal
  | vertical
  | cubic
  | smoothCubic
  | quadratic
  | smoothQuadratic
  | arc
  | close
deriving DecidableEq

namespace Kind

def char : Kind → Char
  | move => 'm'
  | line => 'l'
  | horizontal => 'h'
  | vertical => 'v'
  | cubic => 'c'
  | smoothCubic => 's'
  | quadratic => 'q'
  | smoothQuadratic => 't'
  | arc => 'a'
  | close => 'z'

def ofChar? : Char → Option Kind
  | 'm' => some move
  | 'l' => some line
  | 'h' => some horizontal
  | 'v' => some vertical
  | 'c' => some cubic
  | 's' => some smoothCubic
  | 'q' => some quadratic
  | 't' => some smoothQuadratic
  | 'a' => some arc
  | 'z' => some close
  | _ => none

def arity : Kind → Nat
  | move => 2
  | line => 2
  | horizontal => 1
  | vertical => 1
  | cubic => 6
  | smoothCubic => 4
  | quadratic => 4
  | smoothQuadratic => 2
  | arc => 7
  | close => 0

end Kind

/-- A command letter; absolute ones are written in uppercase. -/
structure Letter where
  kind : Kind
  absolute : Bool
deriving DecidableEq

namespace Letter

def char (letter : Letter) : Char :=
  if letter.absolute then letter.kind.char.toUpper else letter.kind.char

def ofChar? (c : Char) : Option Letter :=
  (Kind.ofChar? c.toLower).map fun kind => ⟨kind, c.isUpper⟩

theorem ofChar?_char (letter : Letter) : ofChar? letter.char = some letter := by
  obtain ⟨kind, absolute⟩ := letter
  cases kind <;> cases absolute <;> rfl

/-- The letter that the second and later groups of operands have: after a move they draw lines. -/
def repeated (letter : Letter) : Letter :=
  if letter.kind = .move then { letter with kind := .line } else letter

end Letter

/-- Characters that begin a command. The two exponent markers belong to numbers. -/
def isCommandStart (c : Char) : Bool := c.isAlpha && c != 'e' && c != 'E'

theorem isCommandStart_char (letter : Letter) : isCommandStart letter.char := by
  obtain ⟨kind, absolute⟩ := letter
  cases kind <;> cases absolute <;> rfl

end TersePath
