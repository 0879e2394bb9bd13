import TersePath.Path.Reflection

/-!
Rules that shorten a path. A rule looks at each command with the one before it in the result and the
one after it in the path, and keeps, replaces, drops or merges it. Only relative commands change
their kind, and no rule changes the control point that a smooth command reflects.
-/

namespace TersePath

inductive Edit where
  | keep
  | replace (command : Command)
  | drop
  | merge (command : Command)

/-- The result of editing the commands in turn; `previous` is the last command of the result so
far. -/
def sweep (edit : Option Command → Command → Option Command → Edit) :
    Option Command → List Command → List Command
  | previous, [] => previous.toList
  | previous, command :: rest =>
    match edit previous command rest.head? with
    | .keep => previous.toList ++ sweep edit (some command) rest
    | .replace other => previous.toList ++ sweep edit (some other) rest
    | .drop => sweep edit previous rest
    | .merge other => sweep edit (some other) rest

/-- The same segment in another spelling; the kept text stays valid. -/
def Command.reshape (command : Command) (kind : Kind) (operands : List Binary64) : Command :=
  { command with letter := ⟨kind, false⟩, operands }

namespace Edit

/-- A cubic whose first control point is its start and whose second one lies on the chord becomes a
line; one that leads nowhere goes away. -/
def straightCubic (previous : Option Command) (command : Command) (next : Option Command) : Edit :=
  match command.asCubic previous with
  | none => keep
  | some c =>
    if c.x1.isZero && c.y1.isZero then
      if ((c.x2.isZero && c.y2.isZero) || onChord c.x2 c.y2 c.x c.y) && canFlatten command next then
        replace (command.reshape .line [c.x, c.y])
      else if c.x.isZero && c.y.isZero && canDrop previous command next then drop
      else keep
    else keep

/-- A cubic that moves one way along one axis becomes a horizontal or vertical line. -/
def axisCubic (previous : Option Command) (command : Command) (next : Option Command) : Edit :=
  match command.asCubic previous with
  | none => keep
  | some c =>
    if !canFlatten command next then keep
    else
      let xs := [.zero, c.x1, c.x2, c.x]
      let ys := [.zero, c.y1, c.y2, c.y]
      if xs.all Binary64.isZero && monotonic ys then replace (command.reshape .vertical [c.y])
      else if ys.all Binary64.isZero && monotonic xs then
        replace (command.reshape .horizontal [c.x])
      else keep

/-- A smooth cubic with no curve before it has its first control point spelled out. -/
def orphanSmooth (previous : Option Command) (command : Command) (_ : Option Command) : Edit :=
  if command.isOrphanSmooth previous then
    replace (command.reshape .cubic (.zero :: .zero :: command.operands))
  else keep

def isRelativeLine (command : Command) : Bool :=
  command.isRelative .line || command.isRelative .horizontal || command.isRelative .vertical

/-- A cubic that starts along its first control point at the pen becomes smooth after a line. -/
def contractSmooth (previous : Option Command) (command : Command) (_ : Option Command) : Edit :=
  match command.operands with
  | x1 :: y1 :: rest =>
    if command.isRelative .cubic && x1.isZero && y1.isZero && previous.any isRelativeLine then
      replace (command.reshape .smoothCubic rest)
    else keep
  | _ => keep

def lineToAxis (_ : Option Command) (command : Command) (_ : Option Command) : Edit :=
  match command.operands with
  | [x, y] =>
    if !command.isRelative .line then keep
    else if y.isZero then replace (command.reshape .horizontal [x])
    else if x.isZero then replace (command.reshape .vertical [y])
    else keep
  | _ => keep

def isRelativeAxis (command : Command) : Bool :=
  command.isRelative .horizontal || command.isRelative .vertical

def isZeroAxis (command : Command) : Bool :=
  isRelativeAxis command && command.operands.head?.any Binary64.isZero

/-- Horizontal or vertical lines in one direction become one line; lines of no length between them
go away unless a smooth command would reflect something else without them. -/
def mergeAxis (previous : Option Command) (command : Command) (next : Option Command) : Edit :=
  if isZeroAxis command && (Command.follower? next).all (reflectsPen previous) then drop
  else
    match previous with
    | none => keep
    | some before =>
      match before.operands, command.operands with
      | [a], [b] =>
        if isRelativeAxis command && before.letter == command.letter && sameDirection a b then
          merge { letter := command.letter, operands := [a + b] }
        else keep
      | _, _ => keep

def zeroAxis (previous : Option Command) (command : Command) (next : Option Command) : Edit :=
  if isZeroAxis command && canDrop previous command next then drop else keep

def closeAfterMove (previous : Option Command) (command : Command) (_ : Option Command) : Edit :=
  if command.kind == .close && previous.any (fun before => before.kind == .move) then drop else keep

def mergeMoves (previous : Option Command) (command : Command) (_ : Option Command) : Edit :=
  match previous with
  | none => keep
  | some before =>
    if command.kind == .move && before.kind == .move then
      if command.absolute then merge { letter := command.letter, operands := command.operands }
      else
        merge {
          letter := before.letter
          operands := List.zipWith (· + ·) before.operands command.operands }
    else keep

end Edit

def trimMoves (commands : List Command) : List Command :=
  commands.foldr (fun command rest =>
    if command.kind == .move && rest.isEmpty then [] else command :: rest) []

inductive Rule where
  | straightCubics
  | axisCubics
  | orphanSmooth
  | contractSmooth
  | linesToAxis
  | mergeAxisRuns
  | dropZeroAxis
  | cleanMoves
deriving DecidableEq

namespace Rule

def name : Rule → String
  | straightCubics => "straight_cubics"
  | axisCubics => "axis_cubics"
  | orphanSmooth => "orphan_smooth"
  | contractSmooth => "contract_smooth"
  | linesToAxis => "lines_to_axis"
  | mergeAxisRuns => "merge_axis_runs"
  | dropZeroAxis => "drop_zero_axis"
  | cleanMoves => "clean_moves"

def all : List Rule :=
  [straightCubics, axisCubics, orphanSmooth, contractSmooth, linesToAxis, mergeAxisRuns,
    dropZeroAxis, cleanMoves]

def ofName? (name : String) : Option Rule := all.find? fun rule => rule.name = name

def apply : Rule → List Command → List Command
  | straightCubics, commands => sweep Edit.straightCubic none commands
  | axisCubics, commands => sweep Edit.axisCubic none commands
  | orphanSmooth, commands => sweep Edit.orphanSmooth none commands
  | contractSmooth, commands => sweep Edit.contractSmooth none commands
  | linesToAxis, commands => sweep Edit.lineToAxis none commands
  | mergeAxisRuns, commands => sweep Edit.mergeAxis none commands
  | dropZeroAxis, commands => sweep Edit.zeroAxis none commands
  | cleanMoves, commands =>
    sweep Edit.mergeMoves none (trimMoves (sweep Edit.closeAfterMove none commands))

end Rule

def simplify (commands : List Command) : List Command :=
  Rule.all.foldl (fun commands rule => rule.apply commands) commands

def shrinkage (commands : List Command) : List (Rule × Nat × Nat) :=
  let step := fun (commands, found) (rule : Rule) =>
    let after := rule.apply commands
    (after, if after.length = commands.length then found
      else found ++ [(rule, commands.length, after.length)])
  (Rule.all.foldl step (commands, ([] : List (Rule × Nat × Nat)))).2

end TersePath
