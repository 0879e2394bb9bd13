import TersePath.Run.Registry
import TersePath.Xml.Reading

namespace TersePath

def optimizeAttributes (config : Config) (tag : Xml.Tag) (ancestors : List Attributes) :
    Except Fault (Option Attributes) :=
  match tag.attributes.get? "d" with
  | none => .ok none
  | some d =>
    if tag.base = "path" then
      match optimize d.toList config (some ⟨tag.attributes, ancestors⟩) with
      | (_, some fault) => .error fault
      | (run, none) =>
        let owner := (run.element.map Element.attributes).getD tag.attributes
        .ok (some (owner.set "d" (String.ofList run.output)))
    else .ok none

mutual

def optimizeNode (config : Config) (ancestors : List Attributes) :
    Xml.Node → Except Fault (Xml.Node × Nat)
  | .element tag children => do
    let changed ← optimizeAttributes config tag ancestors
    let current := changed.getD tag.attributes
    let (children, count) ← optimizeNodes config (current :: ancestors) children
    return (.element { tag with attributes := current } children,
      count + if changed.isSome then 1 else 0)
  | .text content => .ok (.text content, 0)
  | .comment content => .ok (.comment content, 0)
  | .instruction target content => .ok (.instruction target content, 0)

def optimizeNodes (config : Config) (ancestors : List Attributes) :
    List Xml.Node → Except Fault (List Xml.Node × Nat)
  | [] => .ok ([], 0)
  | node :: rest => do
    let (node, count) ← optimizeNode config ancestors node
    let (others, more) ← optimizeNodes config ancestors rest
    return (node :: others, count + more)

end

/-- How a text is read as a tree, which names of the tree cannot be written, and how it is printed. -/
structure Xml.Format where
  read : List Char → Option Xml.Node
  misnamed : Xml.Node → List (List Char)
  print : Xml.Node → List Char

def Xml.Format.standard : Xml.Format where
  read := Xml.readDocument
  misnamed := Xml.Node.misnamed
  print := Xml.Node.render

def optimizeDocumentIn (format : Xml.Format) (config : Config) (text : List Char) :
    Except Fault (List Char × Nat) :=
  match format.read text with
  | none => .error .malformedDocument
  | some root =>
    match format.misnamed root with
    | name :: _ => .error (.invalidName name)
    | [] => (optimizeNode config [] root).map fun (root, count) => (format.print root, count)

/-- The text of a document with its paths shortened, and how many they are. All elements have to have
names that are plain once their namespaces are known. -/
def optimizeDocument (config : Config) (text : List Char) : Except Fault (List Char × Nat) :=
  optimizeDocumentIn .standard config text

end TersePath
