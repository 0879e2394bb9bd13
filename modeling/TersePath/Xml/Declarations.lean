import TersePath.Xml.Reader

namespace TersePath.Xml

inductive Entity where
  | internal (content : List Char)
  | external

inductive AttributeType where
  | text
  | identifier
  | name
  | names
  | token
  | tokens
deriving DecidableEq

def AttributeType.allows : AttributeType → List Char → Bool
  | text, _ => true
  | identifier, value => isName value
  | name, value => isName value
  | names, value => !value.isEmpty && (words value).all isName
  | token, value => isToken value
  | tokens, value => !value.isEmpty && (words value).all isToken

structure AttributeDeclaration where
  element : List Char
  key : List Char
  type : AttributeType
  implied : Option (List Char)

structure DefaultValue where
  element : List Char
  key : Name
  value : List Char

structure Declarations where
  standalone : Bool := false
  incomplete : Bool := false
  entities : List (List Char × Entity) := []
  attributes : List AttributeDeclaration := []
  /-- Default values, also those that an attribute must not have. -/
  defaults : List DefaultValue := []
  elements : List (List Char) := []
  formats : List (List Char) := []

def predefined : List (List Char × Char) :=
  [("lt".toList, '<'), ("gt".toList, '>'), ("amp".toList, '&'), ("quot".toList, '"'),
    ("apos".toList, '\'')]

/-- Whether a predefined entity may be declared with a content: the character itself, unless that is
markup, or a reference to it. -/
def mayRedeclare (c : Char) (content : List Char) : Bool :=
  let hex := Nat.toDigits 16 c.toNat
  (content == [c] && c != '<' && c != '&') ||
    content == "&#".toList ++ Nat.toDigits 10 c.toNat ++ [';'] ||
    content.map Char.toLower == "&#x".toList ++ hex ++ [';'] && content.take 3 == "&#x".toList

def maxEntityDepth : Nat := 20

namespace Declarations

/-- Reports that something is used which is not declared. That is a flaw only if there are
declarations that are not read. -/
def missing (declared : Declarations) : Reader Unit := do
  if declared.incomplete && !declared.standalone then Reader.flaw else failure

def resolve (declared : Declarations) (name : List Char) : Reader (Option (Char ⊕ List Char)) := do
  match predefined.lookup name, declared.entities.lookup name with
  | some c, _ => return some (.inl c)
  | none, some (.internal content) => return some (.inr content)
  | none, some .external => failure
  | none, none =>
    declared.missing
    return none

/-- Reports a reference to a parameter, which is not followed. Its name is looked up among the entities;
one that is found there is warned of. -/
def parameter (declared : Declarations) (name : List Char) : Reader Unit := do
  match predefined.lookup name, declared.entities.lookup name with
  | none, none => missing { declared with incomplete := true }
  | none, some .external => failure
  | _, _ => Reader.warn

def attribute? (declared : Declarations) (element key : List Char) : Option AttributeDeclaration :=
  declared.attributes.find? fun entry => entry.element == element && entry.key == key

def type (declared : Declarations) (element key : List Char) : AttributeType :=
  ((declared.attribute? element key).map AttributeDeclaration.type).getD .text

def defaultsOf (declared : Declarations) (element : List Char) : List (Name × List Char) :=
  (declared.defaults.filter fun entry => entry.element == element).map fun entry =>
    (entry.key, entry.value)

def impliedFor (declared : Declarations) (element : List Char) : List (String × String) :=
  declared.attributes.filterMap fun entry =>
    if entry.element == element then
      entry.implied.map fun value => (String.ofList entry.key, String.ofList value)
    else none

/-- The declarations with one more entity. What is predefined stays as it is. -/
def addEntity (declared : Declarations) (name : List Char) (entity : Entity) :
    Reader Declarations := do
  match predefined.lookup name with
  | some c =>
    match entity with
    | .internal content => if !mayRedeclare c content then Reader.warn
    | .external => Reader.warn
    return declared
  | none =>
    if (declared.entities.lookup name).isSome then return declared
    else return { declared with entities := declared.entities ++ [(name, entity)] }

/-- The declarations with one more attribute. Elements have one identifier at most, and no default
value may be outside of its type. -/
def addAttribute (declared : Declarations) (element key : List Char) (type : AttributeType)
    (value : Option (List Char)) : Reader Declarations := do
  if key == "xml:id".toList && type != .identifier then Reader.flaw
  let implied := value.filter type.allows
  if value.isSome && implied.isNone then Reader.flaw
  let attributes ← do
    if (declared.attribute? element key).isSome then
      Reader.warn
      pure declared.attributes
    else
      let identified := declared.attributes.any fun entry =>
        entry.element == element && entry.type == .identifier
      if type == .identifier && identified then Reader.flaw
      pure (declared.attributes ++ [⟨element, key, type, implied⟩])
  let name := Name.ofText key
  let known := declared.defaults.any fun entry => entry.element == element && entry.key == name
  let defaults := match value with
    | none => declared.defaults
    | some value => if known then declared.defaults else declared.defaults ++ [⟨element, name, value⟩]
  return { declared with attributes, defaults }

end Declarations

end TersePath.Xml
