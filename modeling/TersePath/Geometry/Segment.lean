import TersePath.Fault

/-!
Segments of drawn paths and the points on them. Positions are machine floating point, good enough to
compare two drawings; nothing that is written into a path depends on them.
-/

namespace TersePath.Geometry

structure Point where
  x : Float
  y : Float
deriving Inhabited

namespace Point

def add (p q : Point) : Point := ⟨p.x + q.x, p.y + q.y⟩

def sub (p q : Point) : Point := ⟨p.x - q.x, p.y - q.y⟩

def scale (k : Float) (p : Point) : Point := ⟨k * p.x, k * p.y⟩

instance : Add Point := ⟨add⟩
instance : Sub Point := ⟨sub⟩
instance : HMul Float Point Point := ⟨scale⟩

def turn (cosine sine : Float) (p : Point) : Point :=
  ⟨cosine * p.x - sine * p.y, sine * p.x + cosine * p.y⟩

def same (p q : Point) : Bool := p.x == q.x && p.y == q.y

end Point

/-- An elliptic arc: its ellipse, and the angle of its start and the way to its end, in degrees. -/
structure Arc where
  radii : Point
  cosine : Float
  sine : Float
  center : Point
  theta : Float
  delta : Float

inductive Segment where
  | line (start finish : Point)
  | quadratic (start control finish : Point)
  | cubic (start control1 control2 finish : Point)
  | arc (shape : Arc)

def pi : Float := 3.141592653589793

def radians (degrees : Float) : Float := degrees * (pi / 180)

def degrees (radians : Float) : Float := radians * (180 / pi)

def clip (x : Float) : Float := if x < -1 then -1 else if 1 < x then 1 else x

/-- The angle of a point on the unit circle, from -180 to 180 degrees. -/
def angleOf (u : Point) : Float :=
  if 0 < u.y then degrees u.x.acos
  else if u.y < 0 then -degrees u.x.acos
  else if 0 < u.x then 0
  else 180

/-- The signed angle from one point on the unit circle to another one, before the direction of the
arc is taken into account. -/
def angleBetween (u v : Point) : Float :=
  let cross := u.x * v.y - u.y * v.x
  let dot := u.x * v.x + u.y * v.y
  if 0 < cross then degrees (clip dot).acos
  else if cross < 0 then -degrees (clip dot).acos
  else if 0 < dot then 0
  else 180

namespace Arc

/-- The arc between two points. Radii that are too small for its ends are enlarged. An arc that ends
where it starts is refused. -/
def between (text : List Char) (start radii : Point) (rotation : Float) (large sweep : Bool)
    (finish : Point) : Except Fault Arc := do
  if start.same finish then throw (.unsampleable text)
  let phi := radians rotation
  let cosine := phi.cos
  let sine := phi.sin
  let half := (1 / 2 : Float) * (start - finish).turn cosine (-sine)
  let rx := radii.x.abs
  let ry := radii.y.abs
  let check := half.x * half.x / (rx * rx) + half.y * half.y / (ry * ry)
  let grow := if 1 < check then check.sqrt else 1
  let rx := rx * grow
  let ry := ry * grow
  let x2 := half.x * half.x
  let y2 := half.y * half.y
  let part := rx * rx * y2 + ry * ry * x2
  let square := (rx * rx * (ry * ry) - part) / part
  let root := if square.abs ≤ 1e-8 then 0 else square.sqrt
  let side := if large == sweep then -root else root
  let inner := Point.scale side ⟨rx * half.y / ry, -(ry * half.x / rx)⟩
  let center := inner.turn cosine sine + (1 / 2 : Float) * (start + finish)
  let u : Point := ⟨clip ((half.x - inner.x) / rx), clip ((half.y - inner.y) / ry)⟩
  let v : Point := ⟨clip ((-half.x - inner.x) / rx), clip ((-half.y - inner.y) / ry)⟩
  let raw := angleBetween u v
  let delta :=
    if !sweep && 0 ≤ raw then raw - 360
    else if large && raw ≤ 0 then raw + 360
    else raw
  return { radii := ⟨rx, ry⟩, cosine, sine, center, theta := angleOf u, delta }

def point (arc : Arc) (t : Float) : Point :=
  let angle := radians (arc.theta + t * arc.delta)
  Point.turn arc.cosine arc.sine ⟨arc.radii.x * angle.cos, arc.radii.y * angle.sin⟩ + arc.center

end Arc

def Segment.point (segment : Segment) (t : Float) : Point :=
  match segment with
  | .line start finish => start + t * (finish - start)
  | .quadratic start control finish =>
    (1 - t) * (1 - t) * start + 2 * (1 - t) * t * control + t * t * finish
  | .cubic start control1 control2 finish =>
    start + t * ((3 : Float) * (control1 - start) +
      t * ((3 : Float) * (start + control2) - (6 : Float) * control1 +
        t * ((3 : Float) * (control1 - control2) + finish - start)))
  | .arc shape => shape.point t

end TersePath.Geometry
