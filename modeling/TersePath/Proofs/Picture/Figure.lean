import TersePath.Proofs.Picture.Stroke

/-! What a path draws. A command is first placed: its operands become points that no longer depend on
the pen. A smooth figure then takes the control point that the figure before it leaves, reflected in
the pen, or the pen itself. -/

namespace TersePath.Picture

structure Place where
  point : Point := 0
  start : Point := 0
deriving DecidableEq

/-- A command in absolute coordinates; the first control point of a smooth one is left open. -/
inductive Figure where
  | move (p : Point)
  | line (p : Point)
  | cubic (first : Option Point) (second p : Point)
  | quadratic (control : Option Point) (p : Point)
  | arc (radii : Point) (manner : List ℚ) (p : Point)
  | close (p : Point)
deriving DecidableEq

def Place.base (place : Place) (absolute : Bool) : Point := if absolute then 0 else place.point

@[simp] lemma Place.base_absolute (place : Place) : place.base true = 0 := rfl

@[simp] lemma Place.base_relative (place : Place) : place.base false = place.point := rfl

/-- The rotation and the flags of an arc are plain numbers under every reading of coordinates. -/
def figure (read : Binary64 → ℚ) (place : Place) (command : Command) : Figure :=
  let base := place.base command.absolute
  match command.kind, command.operands with
  | .move, [x, y] => .move (base + (read x, read y))
  | .line, [x, y] => .line (base + (read x, read y))
  | .horizontal, [x] => .line (base.1 + read x, place.point.2)
  | .vertical, [y] => .line (place.point.1, base.2 + read y)
  | .cubic, [x1, y1, x2, y2, x, y] =>
    .cubic (some (base + (read x1, read y1))) (base + (read x2, read y2)) (base + (read x, read y))
  | .smoothCubic, [x2, y2, x, y] =>
    .cubic none (base + (read x2, read y2)) (base + (read x, read y))
  | .quadratic, [x1, y1, x, y] =>
    .quadratic (some (base + (read x1, read y1))) (base + (read x, read y))
  | .smoothQuadratic, [x, y] => .quadratic none (base + (read x, read y))
  | .arc, [rx, ry, rotation, large, sweep, x, y] =>
    .arc (read rx, read ry) [rotation.value, large.value, sweep.value] (base + (read x, read y))
  | .close, _ => .close place.start
  | _, _ => .line place.point

namespace Figure

def target : Figure → Point
  | move p => p
  | line p => p
  | cubic _ _ p => p
  | quadratic _ p => p
  | arc _ _ p => p
  | close p => p

def points : Figure → List Point
  | move p => [p]
  | line p => [p]
  | cubic first second p => first.toList ++ [second, p]
  | quadratic control p => control.toList ++ [p]
  | arc _ _ p => [p]
  | close p => [p]

def isCubic : Figure → Bool
  | cubic .. => true
  | _ => false

def isQuadratic : Figure → Bool
  | quadratic .. => true
  | _ => false

def isSmoothCubic : Figure → Bool
  | cubic none _ _ => true
  | _ => false

def isSmoothQuadratic : Figure → Bool
  | quadratic none _ => true
  | _ => false

end Figure

def Place.after (place : Place) : Figure → Place
  | .move p => ⟨p, p⟩
  | figure => { place with point := figure.target }

def figures (read : Binary64 → ℚ) (place : Place) : List Command → List Figure
  | [] => []
  | command :: rest =>
    let placed := figure read place command
    placed :: figures read (place.after placed) rest

inductive Control where
  | none
  | cubic (p : Point)
  | quadratic (p : Point)
deriving DecidableEq

structure Hand extends Place where
  control : Control := .none
deriving DecidableEq

def reflect (center p : Point) : Point := center + (center - p)

namespace Hand

def cubicLead (hand : Hand) : Point :=
  match hand.control with
  | .cubic p => reflect hand.point p
  | _ => hand.point

def quadraticLead (hand : Hand) : Point :=
  match hand.control with
  | .quadratic p => reflect hand.point p
  | _ => hand.point

def marks (hand : Hand) : Figure → List Mark
  | .move _ => [.gap]
  | .line p => [.stroke (.line hand.point p)]
  | .cubic first second p => [.stroke (.cubic hand.point (first.getD hand.cubicLead) second p)]
  | .quadratic control p => [.stroke (.quadratic hand.point (control.getD hand.quadraticLead) p)]
  | .arc radii manner p => [.stroke (.arc hand.point radii manner p)]
  | .close p => [.stroke (.close hand.point p), .gap]

def leaves (hand : Hand) : Figure → Control
  | .cubic _ second _ => .cubic second
  | .quadratic control _ => .quadratic (control.getD hand.quadraticLead)
  | _ => .none

def follow (hand : Hand) (figure : Figure) : Hand :=
  { hand.toPlace.after figure with control := hand.leaves figure }

def figure (hand : Hand) (command : Command) : Figure :=
  Picture.figure Binary64.value hand.toPlace command

def after (hand : Hand) (command : Command) : Hand := hand.follow (hand.figure command)

def sight (hand : Hand) (command : Command) : List Mark :=
  (hand.marks (hand.figure command)).filterMap Mark.seen

def afterAll (hand : Hand) (commands : List Command) : Hand := commands.foldl after hand

def sights (hand : Hand) : List Command → List (List Mark)
  | [] => []
  | command :: rest => hand.sight command :: (hand.after command).sights rest

def view (hand : Hand) (commands : List Command) : List Mark :=
  Mark.joinAll (hand.sights commands).flatten []

end Hand

/-- The strokes that are seen of a path, from its first to its last. -/
def picture (commands : List Command) : List Stroke := (Hand.view {} commands).filterMap Mark.stroke?

namespace Hand

open Mark (join joinAll)

@[simp] lemma view_nil (hand : Hand) : hand.view [] = [] := rfl

lemma view_cons (hand : Hand) (command : Command) (rest : List Command) :
    hand.view (command :: rest) = joinAll (hand.sight command) ((hand.after command).view rest) := by
  simp [view, sights, joinAll_append]

@[simp] lemma afterAll_nil (hand : Hand) : hand.afterAll [] = hand := rfl

@[simp] lemma afterAll_cons (hand : Hand) (command : Command) (rest : List Command) :
    hand.afterAll (command :: rest) = (hand.after command).afterAll rest := rfl

lemma afterAll_append (hand : Hand) (xs ys : List Command) :
    hand.afterAll (xs ++ ys) = (hand.afterAll xs).afterAll ys := by
  simp [afterAll]

lemma view_append (hand : Hand) (xs ys : List Command) :
    hand.view (xs ++ ys) = joinAll (hand.sights xs).flatten ((hand.afterAll xs).view ys) := by
  induction xs generalizing hand with
  | nil => rfl
  | cons command rest ih =>
    rw [List.cons_append, view_cons, ih, sights, List.flatten_cons, joinAll_append, afterAll_cons]

lemma sights_congr {hand : Hand} {xs ys : List Command}
    (h : figures Binary64.value hand.toPlace xs = figures Binary64.value hand.toPlace ys) :
    hand.sights xs = hand.sights ys := by
  induction xs generalizing hand ys with
  | nil =>
    cases ys with
    | nil => rfl
    | cons command rest => cases h
  | cons command rest ih =>
    cases ys with
    | nil => cases h
    | cons other others =>
      obtain ⟨hhead, htail⟩ := List.cons.inj h
      have hfigure : hand.figure command = hand.figure other := hhead
      have hafter : hand.after command = hand.after other := by rw [after, after, hfigure]
      have hrest : figures Binary64.value (hand.after command).toPlace rest =
        figures Binary64.value (hand.after other).toPlace others := htail
      rw [← hafter] at hrest
      rw [sights, sights, sight, sight, hfigure, ← hafter, ih hrest]

lemma view_congr {hand : Hand} {xs ys : List Command}
    (h : figures Binary64.value hand.toPlace xs = figures Binary64.value hand.toPlace ys) :
    hand.view xs = hand.view ys := by
  rw [view, view, sights_congr h]

end Hand

end TersePath.Picture
