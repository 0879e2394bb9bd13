import TersePath.Path.Cursor
import TersePath.Path.Serialize
import TersePath.Path.Simplify

/-!
Operands by their places. The steps after reading take single operands of a command, by places counted
from its start or from its end. Here each step has an answer only where all the operands that it takes
are there.
-/

namespace TersePath

namespace Guarded

/-- The operand at a place counted from the end; the last one is at zero. -/
def fromEnd? (command : Command) (place : Nat) : Option Binary64 := command.operands.reverse[place]?

section Scaling

def scaledPlaces (command : Command) : List Nat :=
  if command.kind = .arc then [0, 1, 5, 6] else List.range command.operands.length

def endPlace (command : Command) : Axis → Option (Option Nat)
  | .x =>
    match command.kind with
    | .horizontal => some (some 0)
    | .vertical => some none
    | _ => if 2 ≤ command.operands.length then some (some (command.operands.length - 2)) else none
  | .y =>
    match command.kind with
    | .horizontal => some none
    | .vertical => some (some 0)
    | _ => if 1 ≤ command.operands.length then some (some (command.operands.length - 1)) else none

def replaceAt (f : Nat → Binary64 → Binary64) : List Nat → List Binary64 → Option (List Binary64)
  | [], operands => some operands
  | place :: places, operands => do
    let x ← operands[place]?
    replaceAt f places (operands.set place (f place x))

def follow (pen : Pen) (scale : Int) (before after : Command) (axis : Axis) :
    Option (Except Fault Pen) := do
  match ← endPlace before axis with
  | none => return .ok pen
  | some place =>
    if place ∉ scaledPlaces before then none
    else
      let x ← before.operands[place]?
      let result ← after.operands[place]?
      match result.truncate? with
      | none => return .error .infiniteCoordinate
      | some n =>
        let value := scaledValue scale x
        let step := Decimal.ofInt n
        if before.absolute then return .ok (pen.set axis ⟨value, step⟩)
        else
          let track := pen.get axis
          return .ok (pen.set axis ⟨track.exact + value, track.rounded + step⟩)

def scaleCommand (scale : Int) (pen : Pen) (command : Command) :
    Option (Command × Except Fault Pen) := do
  if command.kind = .close then return (command, .ok pen.close)
  let places := scaledPlaces command
  let values ← places.mapM fun place => command.operands[place]?
  if values.all Binary64.isFinite then
    let operands ← replaceAt
      (fun place => scaleOperand scale pen command.absolute (command.kind.role place)) places
      command.operands
    let scaled := { command with operands }
    match ← follow pen scale command scaled .x with
    | .error fault => return (scaled, .error fault)
    | .ok across =>
      let moved ← follow across scale command scaled .y
      return (scaled, if command.kind = .move then moved.map Pen.markStart else moved)
  else
    let operands ← replaceAt (fun _ => Binary64.roundScaled scale) places command.operands
    return ({ command with operands }, .ok pen)

def scaleFrom (scale : Int) : Pen → List Command → Option (List Command × Option Fault)
  | _, [] => some ([], none)
  | pen, command :: rest => do
    let (scaled, moved) ← scaleCommand scale pen command
    match moved with
    | .error fault => return (scaled :: rest, some fault)
    | .ok pen =>
      let (others, fault) ← scaleFrom scale pen rest
      return (scaled :: others, fault)

def neededPlaces (budget : Nat) : List Command → Nat → Option Nat
  | [], places => some places
  | command :: rest, places => do
    let values ← (scaledPlaces command).mapM fun place => command.operands[place]?
    neededPlaces budget rest
      (values.foldl (fun places x => max places (min budget x.decimalPlaces)) places)

end Scaling

section Relative

def finish (command : Command) : Option (Binary64 × Binary64) :=
  if command.kind = .close ∨ command.operands = [] then some (.zero, .zero)
  else
    match command.kind with
    | .horizontal => do return (← command.operands[0]?, .zero)
    | .vertical => do return (.zero, ← command.operands[0]?)
    | _ => do return (← fromEnd? command 1, ← fromEnd? command 0)

def moveTo (cursor : Cursor) (command : Command) : Option Cursor :=
  if command.absolute then
    match command.kind with
    | .horizontal => do return { cursor with x := ← command.operands[0]? }
    | .vertical => do return { cursor with y := ← command.operands[0]? }
    | _ => do
      let (x, y) ← finish command
      return { cursor with x, y }
  else do
    let (x, y) ← finish command
    return { cursor with x := cursor.x + x, y := cursor.y + y }

def advance (cursor : Cursor) (command : Command) : Option Cursor :=
  match command.kind with
  | .close => some cursor.close
  | .move => do return (← moveTo cursor command).markStart
  | _ => moveTo cursor command

def subtractAt (place : Nat) (x : Binary64) (operands : List Binary64) : Option (List Binary64) := do
  return operands.set place ((← operands[place]?) - x)

def subtractPairs (x y : Binary64) : List Binary64 → Option (List Binary64)
  | [] => some []
  | [_] => none
  | a :: b :: rest => do return (a - x) :: (b - y) :: (← subtractPairs x y rest)

def relativeTo (cursor : Cursor) (command : Command) : Option Command := do
  let operands ←
    match command.kind with
    | .horizontal => subtractAt 0 cursor.x command.operands
    | .vertical => subtractAt 0 cursor.y command.operands
    | .arc => do subtractAt 6 cursor.y (← subtractAt 5 cursor.x command.operands)
    | _ => subtractPairs cursor.x cursor.y command.operands
  return { command with operands, letter := { command.letter with absolute := false } }

def relativeFrom (spaced : Bool) (cursor : Cursor) : List Command → Option (List Command)
  | [] => some []
  | command :: rest => do
    let result ←
      if command.kind = .close then some command
      else if command.absolute then relativeTo cursor (command.keepText spaced)
      else some (command.keepText spaced)
    return result :: (← relativeFrom spaced (← advance cursor result) rest)

def toRelative (spaced : Bool) : List Command → Option (List Command)
  | [] => some []
  | command :: rest => do
    let first := if command.kind = .close then command else command.keepText spaced
    return first :: (← relativeFrom spaced (← advance {} first) rest)

end Relative

section Rules

def reflectsPen (previous : Option Command) (follower : Kind) : Option Bool :=
  match previous with
  | none => some true
  | some command =>
    match follower with
    | .smoothCubic =>
      if !command.kind.isCubic then some true
      else do
        let x2 ← fromEnd? command 3
        let y2 ← fromEnd? command 2
        return x2.equals (← fromEnd? command 1) && y2.equals (← fromEnd? command 0)
    | .smoothQuadratic =>
      if !command.kind.isQuadratic then some true
      else if command.kind ≠ .quadratic then some false
      else do
        let x1 ← command.operands[0]?
        let y1 ← command.operands[1]?
        return x1.equals (← command.operands[2]?) && y1.equals (← command.operands[3]?)
    | _ => some true

def leavesFollower (previous : Option Command) (next : Option Command) : Option Bool :=
  match Command.follower? next with
  | none => some true
  | some follower => reflectsPen previous follower

def canDrop (previous : Option Command) (command : Command) (next : Option Command) : Option Bool :=
  do return (← leavesFollower (some command) next) && (← leavesFollower previous next)

def cubicOperands? (previous : Option Command) (command : Command) : Option (List Binary64) :=
  if command.isRelative .cubic then some command.operands
  else if command.isOrphanSmooth previous then some (.zero :: .zero :: command.operands)
  else none

def straightCubic (previous : Option Command) (command : Command) (next : Option Command) :
    Option Edit :=
  match cubicOperands? previous command with
  | none => some .keep
  | some operands => do
    let x1 ← operands[0]?
    let y1 ← operands[1]?
    if x1.isZero && y1.isZero then
      match (operands.drop 2).take 4 with
      | [x2, y2, x, y] =>
        if ((x2.isZero && y2.isZero) || onChord x2 y2 x y) && (← leavesFollower (some command) next) then
          return .replace (command.reshape .line [x, y])
        else if x.isZero && y.isZero && (← canDrop previous command next) then return .drop
        else return .keep
      | _ => none
    else return .keep

def axisCubic (previous : Option Command) (command : Command) (next : Option Command) : Option Edit :=
  match cubicOperands? previous command with
  | none => some .keep
  | some operands => do
    if !(← leavesFollower (some command) next) then return .keep
    let xs := [.zero, ← operands[0]?, ← operands[2]?, ← operands[4]?]
    let ys := [.zero, ← operands[1]?, ← operands[3]?, ← operands[5]?]
    if xs.all Binary64.isZero && monotonic ys then
      return .replace (command.reshape .vertical [← operands[5]?])
    else if ys.all Binary64.isZero && monotonic xs then
      return .replace (command.reshape .horizontal [← operands[4]?])
    else return .keep

def contractSmooth (previous : Option Command) (command : Command) (_ : Option Command) :
    Option Edit :=
  if command.isRelative .cubic then do
    let x1 ← command.operands[0]?
    let y1 ← command.operands[1]?
    if x1.isZero && y1.isZero && previous.any Edit.isRelativeLine then
      return .replace (command.reshape .smoothCubic (command.operands.drop 2))
    else return .keep
  else some .keep

def lineToAxis (_ : Option Command) (command : Command) (_ : Option Command) : Option Edit :=
  if !command.isRelative .line then some .keep
  else
    match command.operands with
    | [x, y] =>
      if y.isZero then some (.replace (command.reshape .horizontal [x]))
      else if x.isZero then some (.replace (command.reshape .vertical [y]))
      else some .keep
    | _ => none

def isZeroAxis (command : Command) : Option Bool :=
  if Edit.isRelativeAxis command then do return (← command.operands[0]?).isZero else some false

def mergeAxis (previous : Option Command) (command : Command) (next : Option Command) :
    Option Edit := do
  if (← isZeroAxis command) && (← leavesFollower previous next) then return .drop
  match previous with
  | none => return .keep
  | some before =>
    if Edit.isRelativeAxis command && before.letter == command.letter then
      let a ← before.operands[0]?
      let b ← command.operands[0]?
      if sameDirection a b then
        return .merge { letter := command.letter, operands := [a + b] }
      else return .keep
    else return .keep

def zeroAxis (previous : Option Command) (command : Command) (next : Option Command) : Option Edit := do
  if (← isZeroAxis command) && (← canDrop previous command next) then return .drop else return .keep

def mergeMoves (previous : Option Command) (command : Command) (_ : Option Command) : Option Edit :=
  match previous with
  | none => some .keep
  | some before =>
    if command.kind == .move && before.kind == .move then
      if command.absolute then
        some (.merge { letter := command.letter, operands := command.operands })
      else do
        let x := (← before.operands[0]?) + (← command.operands[0]?)
        let y := (← before.operands[1]?) + (← command.operands[1]?)
        return .merge { letter := before.letter, operands := [x, y] }
    else some .keep

def sweep (edit : Option Command → Command → Option Command → Option Edit) :
    Option Command → List Command → Option (List Command)
  | previous, [] => some previous.toList
  | previous, command :: rest => do
    match ← edit previous command rest.head? with
    | .keep => return previous.toList ++ (← sweep edit (some command) rest)
    | .replace other => return previous.toList ++ (← sweep edit (some other) rest)
    | .drop => sweep edit previous rest
    | .merge other => sweep edit (some other) rest

def apply : Rule → List Command → Option (List Command)
  | .straightCubics, commands => sweep straightCubic none commands
  | .axisCubics, commands => sweep axisCubic none commands
  | .orphanSmooth, commands => some (Rule.orphanSmooth.apply commands)
  | .contractSmooth, commands => sweep contractSmooth none commands
  | .linesToAxis, commands => sweep lineToAxis none commands
  | .mergeAxisRuns, commands => sweep mergeAxis none commands
  | .dropZeroAxis, commands => sweep zeroAxis none commands
  | .cleanMoves, commands =>
    sweep mergeMoves none (trimMoves (TersePath.sweep Edit.closeAfterMove none commands))

def simplify (commands : List Command) : Option (List Command) :=
  Rule.all.foldlM (fun commands rule => apply rule commands) commands

end Rules

end Guarded

end TersePath
