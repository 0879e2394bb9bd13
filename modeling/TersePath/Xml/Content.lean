import TersePath.Xml.Remark
import TersePath.Xml.Tag

/-!
Content of elements: elements, texts, comments and instructions. Entities are replaced by what their
text is read as, which happens once for each of them and outside of all namespaces.
-/

namespace TersePath.Xml

structure OpenElement where
  tag : Tag
  scope : Scope
  children : List Node

def OpenElement.close (element : OpenElement) : Node := .element element.tag element.children.reverse

/-- Content that is being read: the open elements, the innermost first, and the nodes outside of them,
the last one first. -/
structure Fragment where
  opened : List OpenElement := []
  nodes : List Node := []

namespace Fragment

def scope (fragment : Fragment) : Scope :=
  (fragment.opened.head?.map OpenElement.scope).getD .outermost

def addAll (fragment : Fragment) (added : List Node) : Fragment :=
  match fragment.opened with
  | [] => { fragment with nodes := added.reverse ++ fragment.nodes }
  | element :: outer =>
    { fragment with
      opened := { element with children := added.reverse ++ element.children } :: outer }

def add (fragment : Fragment) (node : Node) : Fragment := fragment.addAll [node]

end Fragment

structure Surroundings where
  declared : Declarations
  depth : Nat
  inEntity : Bool

def maxDepth : Nat := 256

namespace Reader

/-- A start tag after its less-than sign: the content with the element open, or with the whole element
if that ends at once. Values of attributes replace entities to a depth of `depth`. -/
def element (around : Surroundings) (depth fuel : Nat) (fragment : Fragment) : Reader Fragment := do
  if maxDepth ≤ around.depth + fragment.opened.length then failure
  let written ← startTag around.declared depth fuel
  let (tag, scope) ← written.resolve around.declared fragment.scope around.inEntity
  if written.closed then return fragment.add (.element tag [])
  else return { fragment with opened := ⟨tag, scope, []⟩ :: fragment.opened }

def endTag (fragment : Fragment) : Reader Fragment := do
  let found ← name
  skipSpace
  expect ['>']
  match fragment.opened with
  | [] => failure
  | element :: outer =>
    if String.ofList found != element.tag.name then failure
    return { fragment with opened := outer }.add element.close

def plainText : Reader Node := do
  let content ← allow (← takeWhile fun c => c != '<' && c != '&')
  if (splitAtMark "]]>".toList content).isSome then failure
  return .text content

/-- Content up to the end of the root in a document. In an entity it goes up to the end of the text, or
to an end tag that closes nothing in it. Entities are replaced to a depth of `depth`, and each text is
at most `fuel` long. -/
def content (around : Surroundings) : (depth fuel : Nat) → Fragment → Reader (List Node)
  | _, 0, _ => failure
  | depth, fuel + 1, fragment => do
    match ← rest with
    | [] => if fragment.opened.isEmpty then return fragment.nodes.reverse else failure
    | '<' :: '/' :: _ =>
      if fragment.opened.isEmpty then return fragment.nodes.reverse
      expect "</".toList
      let fragment ← endTag fragment
      if fragment.opened.isEmpty && !around.inEntity then return fragment.nodes.reverse
      else content around depth fuel fragment
    | '<' :: _ =>
      if ← accept "<![CDATA[".toList then
        let found ← allow (← upTo "]]>".toList)
        content around depth fuel (fragment.add (.text found))
      else
        match ← remark? with
        | some node => content around depth fuel (fragment.add node)
        | none =>
          expect ['<']
          content around depth fuel (← element around (depth - 1) fuel fragment)
    | '&' :: _ =>
      if ← accept "&#".toList then
        let c ← characterReference
        content around depth fuel (fragment.add (.text [c]))
      else
        expect ['&']
        let found ← entityName
        match ← around.declared.resolve found with
        | none => content around depth fuel fragment
        | some (.inl c) => content around depth fuel (fragment.add (.text [c]))
        | some (.inr text) =>
          match (← get).contents.lookup found with
          | some known =>
            spend known.size
            content around depth fuel (fragment.addAll known.nodes)
          | none =>
            match depth with
            | 0 => failure
            | depth + 1 =>
              let spent := (← get).expansion
              modify fun progress => { progress with expansion := 0 }
              let inside : Surroundings :=
                ⟨around.declared, around.depth + fragment.opened.length + 1, true⟩
              let (nodes, _) ← on (unifyLineEnds text) do
                let nodes ← content inside depth (text.length + 1) {}
                finish
                return nodes
              let size := (← get).expansion + (String.ofList text).utf8ByteSize
              modify fun progress => { progress with
                expansion := spent
                contents := (found, ⟨nodes, size⟩) :: progress.contents }
              spend size
              content around (depth + 1) fuel (fragment.addAll nodes)
    | _ =>
      let node ← plainText
      content around depth fuel (fragment.add node)
termination_by depth fuel => (depth, fuel)

def root (declared : Declarations) (fuel : Nat) : Reader Node := do
  let around : Surroundings := ⟨declared, 0, false⟩
  expect ['<']
  let fragment ← element around (maxEntityDepth - 1) fuel {}
  let nodes ←
    if fragment.opened.isEmpty then pure fragment.nodes
    else content around maxEntityDepth fuel fragment
  match nodes with
  | [node] => return node
  | _ => failure

end Reader

end TersePath.Xml
