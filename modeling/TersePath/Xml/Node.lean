import TersePath.Attributes
import TersePath.Xml.Name

namespace TersePath.Xml

structure Tag where
  name : String
  identifier : Option String
  /-- The name without a prefix that stands for a namespace. -/
  base : String
  namespaces : List (String × String)
  attributes : Attributes

inductive Node where
  | element (tag : Tag) (children : List Node)
  | text (content : List Char)
  | comment (content : List Char)
  | instruction (target : String) (content : Option (List Char))

def escapedInText : Char → List Char
  | '&' => "&amp;".toList
  | '<' => "&lt;".toList
  | '>' => "&gt;".toList
  | '\r' => "&#13;".toList
  | c => [c]

def escapedInValue : Char → List Char
  | '"' => "&quot;".toList
  | '\t' => "&#9;".toList
  | '\n' => "&#10;".toList
  | c => escapedInText c

def attributeText (entry : String × String) : List Char :=
  ' ' :: entry.1.toList ++ '=' :: '"' :: entry.2.toList.flatMap escapedInValue ++ ['"']

/-- What follows the namespace in the name `{identifier}base`, which ends at its first brace. -/
def Tag.plainName (tag : Tag) : List Char :=
  match tag.identifier with
  | none => tag.base.toList
  | some identifier =>
    ((identifier.toList ++ '\x7d' :: tag.base.toList).dropWhile (· != '\x7d')).drop 1

namespace Node

mutual

/-- The text of a node; an element without children is one tag. Implied attributes are left out. -/
def render : Node → List Char
  | .text content => content.flatMap escapedInText
  | .comment content => "<!--".toList ++ content ++ "-->".toList
  | .instruction target none => "<?".toList ++ target.toList ++ "?>".toList
  | .instruction target (some content) =>
    "<?".toList ++ target.toList ++ ' ' :: content ++ "?>".toList
  | .element tag children =>
    let start :=
      '<' :: tag.name.toList ++ (tag.namespaces ++ tag.attributes.given).flatMap attributeText
    match children with
    | [] => start ++ "/>".toList
    | first :: rest =>
      start ++ '>' :: renderAll (first :: rest) ++ "</".toList ++ tag.name.toList ++ ['>']

def renderAll : List Node → List Char
  | [] => []
  | node :: rest => node.render ++ renderAll rest

end

mutual

def misnamed : Node → List (List Char)
  | .element tag children =>
    if isPlainName tag.plainName then misnamedAll children
    else tag.plainName :: misnamedAll children
  | _ => []

def misnamedAll : List Node → List (List Char)
  | [] => []
  | node :: rest => node.misnamed ++ misnamedAll rest

end

end Node

end TersePath.Xml
