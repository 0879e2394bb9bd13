import TersePath.Xml.Uri
import TersePath.Xml.Value

namespace TersePath.Xml

/-- The namespaces of prefixes, innermost first; that of names without a prefix has an empty one. -/
abbrev Scope := List (List Char × List Char)

def xmlNamespace : List Char := "http://www.w3.org/XML/1998/namespace".toList

def xmlnsNamespace : List Char := "http://www.w3.org/2000/xmlns/".toList

namespace Scope

def outermost : Scope := [("xml".toList, xmlNamespace)]

/-- The namespace of an attribute, nothing if its prefix has none. Names without a prefix are in no
namespace. -/
def ofAttribute? (scope : Scope) (key : Name) : Option (List Char) :=
  match key.qualifier with
  | none => some []
  | some qualifier => scope.lookup qualifier

def ofElement? (scope : Scope) (name : Name) : Option (List Char) :=
  (scope.lookup (name.qualifier.getD [])).filter fun identifier => !identifier.isEmpty

end Scope

structure StartTag where
  name : Name
  namespaces : List (List Char × List Char) := []
  attributes : List (Name × List Char) := []
  /-- Whether the tag ends its element at once. -/
  closed : Bool := false

/-- The prefix that an attribute declares; the default namespace has an empty one. -/
def declaredPrefix? (key : Name) : Option (List Char) :=
  match key.qualifier with
  | none => if key.base == "xmlns".toList then some [] else none
  | some qualifier => if qualifier == "xmlns".toList then some key.base else none

def declaringText (front : List Char) : List Char :=
  if front.isEmpty then "xmlns".toList else "xmlns:".toList ++ front

namespace Reader

def checkDefaultNamespace (identifier : List Char) : Reader Bool := do
  if identifier.isEmpty then return true
  if !Uri.isReference identifier then flaw
  else if !Uri.isAbsolute identifier then warn
  if identifier == xmlNamespace || identifier == xmlnsNamespace then
    flaw
    return false
  return true

def checkNamespace (front identifier : List Char) : Reader Bool := do
  if front == "xml".toList then
    if identifier != xmlNamespace then flaw
    return false
  let reserved := front == "xmlns".toList || identifier == xmlNamespace ||
    identifier == xmlnsNamespace
  if reserved || identifier.isEmpty then
    flaw
    return false
  if !Uri.isReference identifier then flaw
  return true

def nextAttribute (declared : Declarations) (depth : Nat) (tag : StartTag) : Reader StartTag := do
  let key ← qualifiedName
  equalsSign
  let value ← attributeValue declared depth (declared.type tag.name.text key.text)
  let isKnown := value == "default".toList || value == "preserve".toList
  if key == ⟨some "xml".toList, "space".toList⟩ && !isKnown then warn
  match declaredPrefix? key with
  | none => return { tag with attributes := tag.attributes ++ [(key, value)] }
  | some front =>
    let accepted ← if front.isEmpty then checkDefaultNamespace value else checkNamespace front value
    if !accepted then return tag
    if (tag.namespaces.lookup front).isSome then failure
    return { tag with namespaces := tag.namespaces ++ [(front, value)] }

def attributes (declared : Declarations) (depth : Nat) : (fuel : Nat) → StartTag → Reader StartTag
  | 0, _ => failure
  | fuel + 1, tag => do
    let blank ← takeWhile isSpace
    if ← accept ['>'] then return tag
    if ← accept ['/', '>'] then return { tag with closed := true }
    if blank.isEmpty then failure
    attributes declared depth fuel (← nextAttribute declared depth tag)

def startTag (declared : Declarations) (depth fuel : Nat) : Reader StartTag := do
  let name ← qualifiedName
  attributes declared depth fuel { name := name }

/-- The given attributes in a scope, each with its namespace. Two of them are never the same, and it is
a flaw if they are so in different words only. Attributes whose prefix has no namespace are a flaw. -/
def distinct (scope : Scope) : List Name → List (List Char × Name) → Reader (List (List Char × Name))
  | [], found => return found
  | key :: rest, found => do
    match scope.ofAttribute? key with
    | none =>
      flaw
      distinct scope rest found
    | some identifier =>
      match found.find? fun entry => entry.1 == identifier && entry.2.base == key.base with
      | none => distinct scope rest ((identifier, key) :: found)
      | some (_, other) =>
        if other.qualifier == key.qualifier then failure
        flaw
        distinct scope rest found

def checkDefaults (scope : Scope) : List Name → List (List Char × Name) → Reader Unit
  | [], _ => return ()
  | key :: rest, found => do
    let identifier := scope.ofAttribute? key
    if identifier.isNone then flaw
    let entry := (identifier.getD [], key)
    match found.find? fun other => other.1 == entry.1 && other.2.base == key.base with
    | none => checkDefaults scope rest (entry :: found)
    | some (_, other) =>
      if other.qualifier != key.qualifier then flaw
      checkDefaults scope rest found

def identifyBy (declared : Declarations) (element : List Char) :
    List (Name × List Char) → Reader Unit
  | [] => return ()
  | (key, value) :: rest => do
    if key == ⟨some "xml".toList, "id".toList⟩ then
      if !isPlainName (collapseSpaces value) then flaw
      identify value
    else if declared.type element key.text == .identifier then identify value
    identifyBy declared element rest

end Reader

def impliedNamespaces (given : List (List Char × List Char)) :
    List (Name × List Char) → List (List Char × List Char)
  | [] => []
  | (key, value) :: rest =>
    match declaredPrefix? key with
    | none => impliedNamespaces given rest
    | some front =>
      let isBuiltIn := front == "xml".toList && value == xmlNamespace
      if isBuiltIn || (given.lookup front).isSome then impliedNamespaces given rest
      else (front, value) :: impliedNamespaces ((front, value) :: given) rest

def toStrings (entries : List (List Char × List Char)) : List (String × String) :=
  entries.map fun (key, value) => (String.ofList key, String.ofList value)

namespace StartTag

/-- The tag with its names resolved, and the scope of its content. An element whose prefix has no
namespace is a flaw; its name has no prefix then. -/
def resolve (declared : Declarations) (scope : Scope) (inEntity : Bool) (tag : StartTag) :
    Reader (Tag × Scope) := do
  let written := tag.name.text
  let defaults := declared.defaultsOf written
  let namespaces := tag.namespaces ++ impliedNamespaces tag.namespaces defaults
  let scope : Scope := namespaces.reverse ++ scope
  let found ← Reader.distinct scope (tag.attributes.map Prod.fst) []
  let values := defaults.filter fun entry => (declaredPrefix? entry.1).isNone
  Reader.checkDefaults scope (values.map Prod.fst) found
  let identifier := scope.ofElement? tag.name
  let isPrefixed := tag.name.qualifier.isSome
  if isPrefixed && identifier.isNone then Reader.flaw
  if !inEntity then Reader.identifyBy declared written tag.attributes
  let attributes : Attributes := {
    given := toStrings (tag.attributes.map fun (key, value) => (key.text, value))
    implied := declared.impliedFor written }
  return ({
    name := String.ofList written
    identifier := identifier.map String.ofList
    base := String.ofList (if identifier.isSome then tag.name.base else written)
    namespaces := toStrings (namespaces.map fun (front, value) => (declaringText front, value))
    attributes }, scope)

end StartTag

end TersePath.Xml
