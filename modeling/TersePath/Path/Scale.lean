import TersePath.Number.Scaling
import TersePath.Path.Command

/-!
Scaling of paths to integer coordinates. The scale is the power of ten that the coordinates need,
within a budget of decimal places. Relative operands are rounded against the exact position of the
pen, so that rounding errors do not add up along a path.
-/

namespace TersePath

-- powers are those of the core library, whatever else is imported
attribute [local instance (high)] instPowNat

inductive Axis where
  | x
  | y
deriving DecidableEq

/-- What an operand is: a coordinate on an axis, a length, or a number that no scale changes. -/
inductive Role where
  | coordinate (axis : Axis)
  | length
  | unscaled
deriving DecidableEq

def Role.axis? : Role → Option Axis
  | coordinate axis => some axis
  | _ => none

def Kind.role (kind : Kind) (index : Nat) : Role :=
  match kind with
  | .horizontal => .coordinate .x
  | .vertical => .coordinate .y
  | .arc =>
    match index with
    | 0 => .length
    | 1 => .length
    | 5 => .coordinate .x
    | 6 => .coordinate .y
    | _ => .unscaled
  | _ => .coordinate (if index % 2 = 0 then .x else .y)

namespace Command

def withRoles (command : Command) : List (Role × Binary64) :=
  command.operands.mapIdx fun index x => (command.kind.role index, x)

def scaledOperands (command : Command) : List Binary64 :=
  (command.withRoles.filter fun operand => operand.1 != .unscaled).map Prod.snd

def mapOperands (f : Role → Binary64 → Binary64) (command : Command) : Command :=
  { command with operands := command.operands.mapIdx fun index => f (command.kind.role index) }

def finish? (command : Command) : Axis → Option Binary64
  | .x =>
    match command.kind with
    | .horizontal => command.operands.head?
    | .vertical => none
    | _ => command.operands[command.operands.length - 2]?
  | .y =>
    match command.kind with
    | .horizontal => none
    | .vertical => command.operands.head?
    | _ => command.operands[command.operands.length - 1]?

end Command

def neededPlaces (commands : List Command) (budget : Nat) : Nat :=
  commands.foldl (fun places command =>
    command.scaledOperands.foldl (fun places x => max places (min budget x.decimalPlaces)) places) 0

/-- The power of ten that makes the coordinates integers, as far as the budget allows. -/
def resolveScale (commands : List Command) (budget : Nat) : Nat := 10 ^ neededPlaces commands budget

def scaleWithin (commands : List Command) (budget : Int) : Nat := resolveScale commands budget.toNat

/-- A position along one axis, exact and as it was rounded, both in scaled space. -/
structure Track where
  exact : Decimal := .ofInt 0
  rounded : Decimal := .ofInt 0
deriving DecidableEq

structure Pen where
  x : Track := {}
  y : Track := {}
  startX : Track := {}
  startY : Track := {}
deriving DecidableEq

namespace Pen

def get (pen : Pen) : Axis → Track
  | .x => pen.x
  | .y => pen.y

def set (pen : Pen) (axis : Axis) (track : Track) : Pen :=
  match axis with
  | .x => { pen with x := track }
  | .y => { pen with y := track }

def close (pen : Pen) : Pen := { pen with x := pen.startX, y := pen.startY }

def markStart (pen : Pen) : Pen := { pen with startX := pen.x, startY := pen.y }

end Pen

def scaledValue (scale : Int) (x : Binary64) : Decimal := x.toDecimal * Decimal.ofInt scale

/-- The scaled operand. A relative coordinate becomes the difference of two rounded positions. -/
def scaleOperand (scale : Int) (pen : Pen) (absolute : Bool) (role : Role) (x : Binary64) : Binary64 :=
  let value := scaledValue scale x
  match role with
  | .unscaled => x
  | .length => (Decimal.ofInt value.nearest).toBinary64
  | .coordinate axis =>
    if absolute then (Decimal.ofInt value.nearest).toBinary64
    else
      let track := pen.get axis
      (Decimal.ofInt (track.exact + value).nearest - track.rounded).toBinary64

/-- The pen after a command, on one axis. The scaled operand must have an integer value. -/
def Pen.follow (pen : Pen) (scale : Int) (before after : Command) (axis : Axis) : Except Fault Pen :=
  match before.finish? axis, after.finish? axis with
  | some x, some result =>
    match result.truncate? with
    | none => .error .infiniteCoordinate
    | some n =>
      let value := scaledValue scale x
      let step := Decimal.ofInt n
      if before.absolute then .ok (pen.set axis ⟨value, step⟩)
      else
        let track := pen.get axis
        .ok (pen.set axis ⟨track.exact + value, track.rounded + step⟩)
  | _, _ => .ok pen

/-- One command scaled, and the pen after it. What is not finite does not move the pen. -/
def scaleCommand (scale : Int) (pen : Pen) (command : Command) : Command × Except Fault Pen :=
  if command.kind = .close then (command, .ok pen.close)
  else if command.scaledOperands.all Binary64.isFinite then
    let scaled := command.mapOperands (scaleOperand scale pen command.absolute)
    let moved := (pen.follow scale command scaled .x).bind fun pen =>
      pen.follow scale command scaled .y
    (scaled, if command.kind = .move then moved.map Pen.markStart else moved)
  else
    let scaled := command.mapOperands fun role x =>
      if role = .unscaled then x else x.roundScaled scale
    (scaled, .ok pen)

/-- The commands scaled one after another. After a fault the rest is left as it was. -/
def scaleFrom (scale : Int) : Pen → List Command → List Command × Option Fault
  | _, [] => ([], none)
  | pen, command :: rest =>
    let (scaled, moved) := scaleCommand scale pen command
    match moved with
    | .error fault => (scaled :: rest, some fault)
    | .ok pen =>
      let (others, fault) := scaleFrom scale pen rest
      (scaled :: others, fault)

/-- The path in scaled space, rounded to integers even at a scale of one. -/
def applyScale (scale : Int) (commands : List Command) : List Command × Option Fault :=
  scaleFrom scale {} commands

end TersePath
