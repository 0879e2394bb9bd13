import TersePath.Attributes
import TersePath.Number.Scaling
import TersePath.Text.Blank

namespace TersePath

structure Element where
  attributes : Attributes
  ancestors : List Attributes
deriving DecidableEq

structure Visibility where
  fill : String := "black"
  stroke : String := "none"
  strokeWidth : Binary64 := .ofInt 1
deriving DecidableEq

def leadingLength? (text : String) : Option Binary64 :=
  (Numeral.readFront (text.toList.dropWhile isBlank)).map fun found => found.1.toBinary64

/-- A value that is given and not empty. -/
def givenValue? (attributes : Attributes) (name : String) : Option String :=
  (attributes.get? name).filter fun value => !value.isEmpty

namespace Visibility

def inherit (attributes : Attributes) (inherited : Visibility) : Visibility where
  fill := (givenValue? attributes "fill").getD inherited.fill
  stroke := (givenValue? attributes "stroke").getD inherited.stroke
  strokeWidth :=
    ((givenValue? attributes "stroke-width").bind leadingLength?).getD inherited.strokeWidth

def ofChain (chain : List Attributes) : Visibility := chain.foldr inherit {}

/-- The stroke widths of a chain that are no lengths, each with the width inherited instead; the
farthest first. -/
def unreadableWidths : List Attributes → List (String × Binary64)
  | [] => []
  | attributes :: ancestors =>
    unreadableWidths ancestors ++
      match givenValue? attributes "stroke-width" with
      | none => []
      | some width =>
        if (leadingLength? width).isSome then []
        else [(width, (ofChain ancestors).strokeWidth)]

end Visibility

def scaleTransform (scale : Int) : Except Fault String :=
  (Binary64.reciprocal scale).map fun factor =>
    "scale(" ++ String.ofList factor.spelling ++ ")"

namespace Element

def chain (element : Element) : List Attributes := element.attributes :: element.ancestors

def visibility (element : Element) : Visibility := .ofChain element.chain

def set (element : Element) (name value : String) : Element :=
  { element with attributes := element.attributes.set name value }

def setOnParent (element : Element) (name value : String) : Option Element :=
  match element.ancestors with
  | [] => none
  | parent :: rest => some { element with ancestors := parent.set name value :: rest }

def withTransform (element : Element) (transform : String) : Element :=
  let existing := trim ((element.attributes.get? "transform").getD "").toList
  element.set "transform"
    (if existing.isEmpty then transform else String.ofList existing ++ " " ++ transform)

/-- The element of a path whose coordinates are scaled. The transform is set before the stroke width
can fail. -/
def compensate (element : Element) (scale : Int) : Element × Option Fault :=
  match scaleTransform scale with
  | .error fault => (element, some fault)
  | .ok transform =>
    let moved := element.withTransform transform
    let painted := moved.visibility
    if painted.stroke ≠ "none" ∨ (moved.attributes.get? "stroke-width").isSome then
      match painted.strokeWidth.timesInteger scale with
      | .error fault => (moved, some fault)
      | .ok width => (moved.set "stroke-width" (String.ofList width.spelling), none)
    else (moved, none)

end Element

end TersePath
