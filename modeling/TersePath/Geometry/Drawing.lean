import TersePath.Geometry.Segment
import TersePath.Number.Numeral
import TersePath.Path.Letter
import TersePath.Text.Blank

/-!
The segments that a path text draws. Moves draw nothing, a close draws a line only when the pen is
not at the start of the subpath, and all that is neither a letter nor a number counts as a separator.
-/

namespace TersePath.Geometry

inductive Piece where
  | letter (letter : Letter)
  | number (text : List Char)

def splitExponent : List Char → List Char × List Char
  | c :: rest =>
    if c == 'e' || c == 'E' then
      let (sign, digits) := match rest with
        | '-' :: digits => (['-'], digits)
        | '+' :: digits => (['+'], digits)
        | digits => ([], digits)
      if (digits.head?.any Char.isDigit) then
        (c :: sign ++ digits.takeWhile Char.isDigit, digits.dropWhile Char.isDigit)
      else ([], c :: rest)
    else ([], c :: rest)
  | [] => ([], [])

def splitUnsigned (text : List Char) : Option (List Char × List Char) :=
  let whole := text.takeWhile Char.isDigit
  let rest := text.dropWhile Char.isDigit
  let mantissa : Option (List Char × List Char) :=
    match rest with
    | '.' :: c :: after =>
      if c.isDigit then
        let fraction := (c :: after).takeWhile Char.isDigit
        some (whole ++ '.' :: fraction, (c :: after).dropWhile Char.isDigit)
      else if whole.isEmpty then none
      else some (whole, rest)
    | _ => if whole.isEmpty then none else some (whole, rest)
  mantissa.map fun (digits, rest) =>
    let (exponent, rest) := splitExponent rest
    (digits ++ exponent, rest)

def splitNumber (text : List Char) : Option (List Char × List Char) :=
  match text with
  | '-' :: rest => (splitUnsigned rest).map fun (digits, rest) => ('-' :: digits, rest)
  | '+' :: rest => (splitUnsigned rest).map fun (digits, rest) => ('+' :: digits, rest)
  | _ => splitUnsigned text

def Piece.value : Piece → Except Fault Float
  | .letter found => .error (.misplacedLetter found.char)
  | .number text => .ok (readNumber text).toFloat

/-- The letters and numbers of a text of at most `fuel` characters. Of the seven operands of an arc,
the fourth and the fifth are flags, and a flag may be one digit with the next operand right behind it.
The operands of arcs that come so far are counted by `operands`, if the last letter is that of an arc;
they end at the first text that is none of them. -/
def pieces : (fuel : Nat) → (operands : Option Nat) → List Char → List Piece
  | 0, _, _ => []
  | _, _, [] => []
  | fuel + 1, operands, c :: rest =>
    match Letter.ofChar? c with
    | some letter =>
      .letter letter :: pieces fuel (if letter.kind = .arc then some 0 else none) rest
    | none =>
      match operands with
      | none =>
        match splitNumber (c :: rest) with
        | some (text, rest) => .number text :: pieces fuel none rest
        | none => pieces fuel none rest
      | some count =>
        let isFlag := count % 7 == 3 || count % 7 == 4
        if isBlank c || c == ',' then pieces fuel (some count) rest
        else if isFlag && (c == '0' || c == '1') then
          .number [c] :: pieces fuel (some (count + 1)) rest
        else
          match splitNumber (c :: rest) with
          | some (text, rest) => .number text :: pieces fuel (some (count + 1)) rest
          | none => pieces fuel none (rest.dropWhile fun c => (Letter.ofChar? c).isNone)

/-- The operands of a command, and the pieces after them. That there are enough pieces is seen to
first, letters included. -/
def takeOperands (text : List Char) (letter : Letter) (pieces : List Piece) :
    Except Fault (List Float × List Piece) := do
  let arity := letter.kind.arity
  let taken := pieces.take arity
  if taken.length < arity then throw (.operandsShort letter pieces.length text)
  return (← taken.mapM Piece.value, pieces.drop arity)

structure Brush where
  pen : Point := ⟨0, 0⟩
  start : Point := ⟨0, 0⟩
  /-- The letter that operands without one of their own belong to. -/
  letter : Option Letter := none
  cubic : Option Point := none
  quadratic : Option Point := none

namespace Brush

def goTo (brush : Brush) (pen : Point) : Brush :=
  { brush with pen, cubic := none, quadratic := none }

def reflection (brush : Brush) (control : Option Point) : Point :=
  match control with
  | none => brush.pen
  | some control => brush.pen + brush.pen - control

/-- Draws one segment of a kind. An arc without a radius is a line. -/
def draw (text : List Char) (brush : Brush) (letter : Letter) (operands : List Float) :
    Except Fault (Option Segment × Brush) :=
  let base : Point := if letter.absolute then ⟨0, 0⟩ else brush.pen
  let value := fun i => operands.getD i 0
  let place := fun i => base + ⟨value i, value (i + 1)⟩
  match letter.kind with
  | .move =>
    let pen := place 0
    .ok (none, { brush.goTo pen with start := pen, letter := some { letter with kind := .line } })
  | .close =>
    let drawn := if brush.pen.same brush.start then none else some (.line brush.pen brush.start)
    .ok (drawn, { brush.goTo brush.start with letter := none })
  | .line => .ok (some (.line brush.pen (place 0)), brush.goTo (place 0))
  | .horizontal =>
    let finish : Point := ⟨base.x + value 0, brush.pen.y⟩
    .ok (some (.line brush.pen finish), brush.goTo finish)
  | .vertical =>
    let finish : Point := ⟨brush.pen.x, base.y + value 0⟩
    .ok (some (.line brush.pen finish), brush.goTo finish)
  | .cubic =>
    .ok (some (.cubic brush.pen (place 0) (place 2) (place 4)),
      { brush.goTo (place 4) with cubic := some (place 2) })
  | .smoothCubic =>
    .ok (some (.cubic brush.pen (brush.reflection brush.cubic) (place 0) (place 2)),
      { brush.goTo (place 2) with cubic := some (place 0) })
  | .quadratic =>
    .ok (some (.quadratic brush.pen (place 0) (place 2)),
      { brush.goTo (place 2) with quadratic := some (place 0) })
  | .smoothQuadratic =>
    let control := brush.reflection brush.quadratic
    .ok (some (.quadratic brush.pen control (place 0)),
      { brush.goTo (place 0) with quadratic := some control })
  | .arc =>
    let finish := place 5
    if value 0 == 0 || value 1 == 0 then .ok (some (.line brush.pen finish), brush.goTo finish)
    else
      (Arc.between text brush.pen ⟨value 0, value 1⟩ (value 2) (value 3 != 0) (value 4 != 0) finish).map
        fun arc => (some (.arc arc), brush.goTo finish)

end Brush

def segmentsFrom (text : List Char) : (fuel : Nat) → Brush → List Piece → Except Fault (List Segment)
  | 0, _, _ => .ok []
  | _, _, [] => .ok []
  | fuel + 1, brush, piece :: rest => do
    let (letter, following) ← match piece, brush.letter with
      | .letter letter, _ => pure (letter, rest)
      | .number _, some letter => pure (letter, piece :: rest)
      | .number _, none => throw (.operandsWithoutLetter text (rest.length + 1))
    let (operands, following) ← takeOperands text letter following
    let (drawn, brush) ← Brush.draw text { brush with letter := some letter } letter operands
    return drawn.toList ++ (← segmentsFrom text fuel brush following)

def segments (text : List Char) : Except Fault (List Segment) :=
  let found := pieces text.length none text
  segmentsFrom text found.length {} found

end TersePath.Geometry
