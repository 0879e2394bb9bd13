import TersePath.Geometry.Drawing

/-!
The distance between two drawings: the largest distance from a sampled point of one of them to the
polylines through the sampled points of the other one.
-/

namespace TersePath.Geometry

def parameters (count : Nat) : List Float :=
  let step := 1 / (count - 1 : Nat).toFloat
  (List.range count).map fun i =>
    if i = 0 then 0 else if i + 1 = count then 1 else i.toFloat * step

def samples (text : List Char) (count : Int) (scale : Float) : Except Fault (List (List Point)) := do
  let drawn ← segments text
  if count < 0 then throw (.negativeSamples count)
  return drawn.map fun segment =>
    (parameters count.toNat).map fun t =>
      let p := segment.point t
      ⟨p.x / scale, p.y / scale⟩

def linePieces (polyline : List Point) : List (Point × Point) := polyline.zip polyline.tail

/-- The lesser value, undefined if one of them is. -/
def lesser (a b : Float) : Float := if a.isNaN then a else if b.isNaN then b else if b < a then b else a

def greater (a b : Float) : Float := if a.isNaN then a else if b.isNaN then b else if a < b then b else a

def pieceDistance (p : Point) (piece : Point × Point) : Float :=
  let along := piece.2 - piece.1
  let square := along.x * along.x + along.y * along.y
  let square := if square == 0 then 1 else square
  let offset := p - piece.1
  let t := (offset.x * along.x + offset.y * along.y) / square
  let t := if t < 0 then 0 else if 1 < t then 1 else t
  let gap := p - (piece.1 + t * along)
  (gap.x * gap.x + gap.y * gap.y).sqrt

def distance (pieces : List (Point × Point)) (p : Point) : Except Fault Float :=
  match pieces with
  | [] => .error .noLeast
  | first :: rest =>
    .ok (rest.foldl (fun best piece => lesser best (pieceDistance p piece)) (pieceDistance p first))

def reach (points : List Point) (pieces : List (Point × Point)) : Except Fault Float := do
  match ← points.mapM (distance pieces) with
  | [] => throw .noGreatest
  | first :: rest => return rest.foldl greater first

/-- The distance between two drawings, infinite when only one of them is empty. -/
def drawingDistance (a b : List (List Point)) : Except Fault Float :=
  if a.isEmpty && b.isEmpty then .ok 0
  else if a.isEmpty || b.isEmpty then .ok (1 / 0)
  else do
    let forward ← reach a.flatten (b.flatMap linePieces)
    let backward ← reach b.flatten (a.flatMap linePieces)
    return if forward < backward then backward else forward

/-- The distance between two path texts, the second of which is drawn in a scaled space. -/
def maxDeviation (text scaled : List Char) (scale : Float) (count : Int) : Except Fault Float := do
  let a ← samples text count 1
  let b ← samples scaled count scale
  drawingDistance a b

end TersePath.Geometry
