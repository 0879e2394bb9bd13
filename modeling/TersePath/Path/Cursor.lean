import TersePath.Path.Scale
import TersePath.Path.Spelling

namespace TersePath

structure Cursor where
  x : Binary64 := .zero
  y : Binary64 := .zero
  startX : Binary64 := .zero
  startY : Binary64 := .zero
deriving DecidableEq

namespace Cursor

def get (cursor : Cursor) : Axis → Binary64
  | .x => cursor.x
  | .y => cursor.y

def close (cursor : Cursor) : Cursor := { cursor with x := cursor.startX, y := cursor.startY }

def markStart (cursor : Cursor) : Cursor := { cursor with startX := cursor.x, startY := cursor.y }

def moveTo (cursor : Cursor) (command : Command) : Cursor :=
  let (x, y) := command.finish
  if command.absolute then
    match command.kind with
    | .horizontal => { cursor with x }
    | .vertical => { cursor with y }
    | _ => { cursor with x, y }
  else { cursor with x := cursor.x + x, y := cursor.y + y }

def advance (cursor : Cursor) (command : Command) : Cursor :=
  match command.kind with
  | .close => cursor.close
  | .move => (cursor.moveTo command).markStart
  | _ => cursor.moveTo command

def trace (cursor : Cursor) : List Command → List Cursor
  | [] => []
  | command :: rest =>
    let after := cursor.advance command
    after :: after.trace rest

end Cursor

def Command.relativeTo (cursor : Cursor) (command : Command) : Command :=
  let moved := command.mapOperands fun role x =>
    match role with
    | .coordinate axis => x - cursor.get axis
    | _ => x
  { moved with letter := { command.letter with absolute := false } }

def Command.keepText (spaced : Bool) (command : Command) : Command :=
  { command with absoluteText := some (command.text spaced) }

def relativeFrom (spaced : Bool) (cursor : Cursor) : List Command → List Command
  | [] => []
  | command :: rest =>
    let result :=
      if command.kind = .close then command
      else
        let kept := command.keepText spaced
        if command.absolute then kept.relativeTo cursor else kept
    result :: relativeFrom spaced (cursor.advance result) rest

/-- The path with all commands but the first made relative. -/
def toRelative (spaced : Bool) : List Command → List Command
  | [] => []
  | command :: rest =>
    let first := if command.kind = .close then command else command.keepText spaced
    first :: relativeFrom spaced (Cursor.advance {} first) rest

end TersePath
