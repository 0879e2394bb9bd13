import TersePath.Path.Command

/-!
Smooth commands and the control points that they reflect. A smooth cubic reflects the second control
point of a cubic before it, a smooth quadratic the control point of a quadratic; after anything else
the first control point is the pen.
-/

namespace TersePath

/-- The control points and the end of a cubic curve, relative to its start. -/
structure Cubic where
  x1 : Binary64
  y1 : Binary64
  x2 : Binary64
  y2 : Binary64
  x : Binary64
  y : Binary64
deriving DecidableEq

def Cubic.operands (curve : Cubic) : List Binary64 :=
  [curve.x1, curve.y1, curve.x2, curve.y2, curve.x, curve.y]

def Kind.isCubic (kind : Kind) : Bool := kind == .cubic || kind == .smoothCubic

def Kind.isQuadratic (kind : Kind) : Bool := kind == .quadratic || kind == .smoothQuadratic

def Kind.isSmooth (kind : Kind) : Bool := kind == .smoothCubic || kind == .smoothQuadratic

namespace Command

def isOrphanSmooth (previous : Option Command) (command : Command) : Bool :=
  command.isRelative .smoothCubic && previous.any fun before => !before.kind.isCubic

def asCubic (previous : Option Command) (command : Command) : Option Cubic :=
  if command.isRelative .cubic then
    match command.operands with
    | [x1, y1, x2, y2, x, y] => some ⟨x1, y1, x2, y2, x, y⟩
    | _ => none
  else if command.isOrphanSmooth previous then
    match command.operands with
    | [x2, y2, x, y] => some ⟨.zero, .zero, x2, y2, x, y⟩
    | _ => none
  else none

def endsAtControl (command : Command) : Bool :=
  match command.operands.reverse with
  | y :: x :: y2 :: x2 :: _ => x2.equals x && y2.equals y
  | _ => false

def follower? (next : Option Command) : Option Kind :=
  (next.map kind).filter Kind.isSmooth

end Command

/-- Whether a smooth command after `previous` has the pen as its first control point. -/
def reflectsPen (previous : Option Command) (follower : Kind) : Bool :=
  match previous with
  | none => true
  | some command =>
    match follower with
    | .smoothCubic => !command.kind.isCubic || command.endsAtControl
    | .smoothQuadratic =>
      !command.kind.isQuadratic || (command.kind == .quadratic && command.endsAtControl)
    | _ => true

/-- Whether a command may become a line without a change to the one after it. -/
def canFlatten (command : Command) (next : Option Command) : Bool :=
  (Command.follower? next).all fun follower => reflectsPen (some command) follower

def canDrop (previous : Option Command) (command : Command) (next : Option Command) : Bool :=
  (Command.follower? next).all fun follower =>
    reflectsPen (some command) follower && reflectsPen previous follower

def onChord (x1 y1 x2 y2 : Binary64) : Bool :=
  if x2.isZero && y2.isZero then false
  else if !(x1 * y2 - y1 * x2).isZero then false
  else
    let dot := x1 * x2 + y1 * y2
    Binary64.zero.atMost dot && dot.atMost (x2 * x2 + y2 * y2)

def allNeighbours (holds : Binary64 → Binary64 → Bool) (values : List Binary64) : Bool :=
  (values.zip values.tail).all fun (a, b) => holds a b

def monotonic (values : List Binary64) : Bool :=
  allNeighbours (fun a b => a.atMost b) values || allNeighbours (fun a b => b.atMost a) values

def signClass (x : Binary64) : Option Int :=
  if x.isNan then none
  else if x.isZero then some 0
  else if Binary64.zero.less x then some 1
  else some (-1)

/-- Whether two steps go the same way; a step of zero goes either way. -/
def sameDirection (a b : Binary64) : Bool :=
  match signClass a, signClass b with
  | some s, some t => s == 0 || t == 0 || s == t
  | _, _ => false

end TersePath
