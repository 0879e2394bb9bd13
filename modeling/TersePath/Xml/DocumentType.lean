import TersePath.Xml.ContentModel
import TersePath.Xml.Remark
import TersePath.Xml.Value

namespace TersePath.Xml

def isPublicPart (c : Char) : Bool :=
  c.isAlphanum || c == '\r' || c == '\n' || " -'()+,./:=?;!*#@$_%".toList.contains c

namespace DocumentType

def publicIdentifier : Reader Unit := do
  if !(← Reader.quoted).all isPublicPart then failure

def externalIdentifier? : Reader (Option (List Char)) := do
  if ← Reader.accept "SYSTEM".toList then
    Reader.space
    return some (← Reader.quoted)
  else if ← Reader.accept "PUBLIC".toList then
    Reader.space
    publicIdentifier
    Reader.space
    return some (← Reader.quoted)
  else return none

/-- The value of an entity with its numeric references replaced; all other references stay. It ends
before the first parameter, which may not have the name of an entity; what follows is not read. -/
def entityValue (declared : Declarations) : (fuel : Nat) → List Char → Reader (List Char)
  | _, [] => return []
  | 0, _ => failure
  | fuel + 1, '&' :: '#' :: rest => do
    let (c, rest) ← Reader.on rest Reader.characterReference
    return c :: (← entityValue declared fuel rest)
  | fuel + 1, '&' :: rest => do
    let (found, rest) ← Reader.on rest Reader.entityName
    return '&' :: found ++ ';' :: (← entityValue declared fuel rest)
  | _ + 1, '%' :: rest => do
    let (found, _) ← Reader.on rest Reader.entityName
    if (predefined.lookup found).isSome || (declared.entities.lookup found).isSome then failure
    declared.parameter found
    return []
  | fuel + 1, c :: rest => do
    let _ ← Reader.allow [c]
    return c :: (← entityValue declared fuel rest)

/-- An entity outside of the document, after its identifier: the end of its declaration, before which
a format may be named. -/
def externalEntity : Reader Unit := do
  let blank ← Reader.takeWhile isSpace
  if !blank.isEmpty && (← Reader.accept "NDATA".toList) then
    Reader.space
    if (← Reader.rest).head?.any fun c => c != '>' then
      let _ ← Reader.name

/-- An entity, after its keyword. The null character is in no value, not even where that is not read. -/
def entity (declared : Declarations) : Reader Declarations := do
  Reader.space
  let isParameter ← Reader.accept ['%']
  if isParameter then Reader.space
  let found ← Reader.unqualifiedName
  Reader.space
  match ← externalIdentifier? with
  | some place =>
    if place.contains '#' then failure
    if !isParameter then externalEntity
    let declared ← if isParameter then pure declared else declared.addEntity found .external
    Reader.skipSpace
    Reader.expect ['>']
    return declared
  | none =>
    let raw ← Reader.literal
    if raw.contains '\x00' then failure
    let content ← entityValue declared raw.length raw
    let declared := { declared with incomplete := declared.incomplete || raw.contains '%' }
    let declared ←
      if isParameter then pure declared else declared.addEntity found (.internal content)
    Reader.skipSpace
    Reader.expect ['>']
    return declared

def token : Reader (List Char) := do
  let found ← Reader.takeWhile isTokenPart
  if found.isEmpty then failure
  return found

def alternatives (value : Reader (List Char)) : (fuel : Nat) → List (List Char) → Reader Unit
  | 0, _ => failure
  | fuel + 1, found => do
    Reader.skipSpace
    let item ← value
    if found.contains item then Reader.flaw
    Reader.skipSpace
    if ← Reader.accept ['|'] then alternatives value fuel (item :: found) else Reader.expect [')']

def keywordTypes : List (List Char × AttributeType) :=
  [("CDATA".toList, .text), ("IDREFS".toList, .names), ("IDREF".toList, .name),
    ("ID".toList, .identifier), ("ENTITY".toList, .name), ("ENTITIES".toList, .names),
    ("NMTOKENS".toList, .tokens), ("NMTOKEN".toList, .token)]

def attributeType (fuel : Nat) : Reader AttributeType := do
  let text ← Reader.rest
  match keywordTypes.find? fun entry => entry.1.isPrefixOf text with
  | some (keyword, type) =>
    Reader.setRest (text.drop keyword.length)
    return type
  | none =>
    if ← Reader.accept "NOTATION".toList then
      Reader.space
      Reader.expect ['(']
      alternatives Reader.name fuel []
      return .name
    else
      Reader.expect ['(']
      alternatives token fuel []
      return .tokens

def defaultValue (declared : Declarations) (type : AttributeType) :
    Reader (Option (List Char)) := do
  if ← Reader.accept "#REQUIRED".toList then return none
  if ← Reader.accept "#IMPLIED".toList then return none
  if ← Reader.accept "#FIXED".toList then Reader.space
  return some (← attributeValue declared (maxEntityDepth - 1) type)

def attributes (element : List Char) : (fuel : Nat) → Declarations → Reader Declarations
  | 0, _ => failure
  | fuel + 1, declared => do
    if ← Reader.accept ['>'] then return declared
    let key ← Reader.name
    Reader.space
    let type ← attributeType fuel
    Reader.space
    let value ← defaultValue declared type
    if (← Reader.rest).head? != some '>' then Reader.space
    attributes element fuel (← declared.addAttribute element key type value)

/-- An element, after its keyword. That it is declared again is a flaw. -/
def element (declared : Declarations) (fuel : Nat) : Reader Declarations := do
  Reader.space
  let found ← Reader.name
  Reader.space
  ContentModel.read fuel
  if declared.elements.contains found then Reader.flaw
  Reader.skipSpace
  Reader.expect ['>']
  return { declared with elements := found :: declared.elements }

def format (declared : Declarations) : Reader Declarations := do
  Reader.space
  let found ← Reader.unqualifiedName
  Reader.space
  if ← Reader.accept "PUBLIC".toList then
    Reader.space
    publicIdentifier
    let blank ← Reader.takeWhile isSpace
    if !blank.isEmpty && (← Reader.rest).head? != some '>' then
      let _ ← Reader.quoted
  else if (← externalIdentifier?).isNone then failure
  if declared.formats.contains found then Reader.flaw
  Reader.skipSpace
  Reader.expect ['>']
  return { declared with formats := found :: declared.formats }

def internalSubset : (fuel : Nat) → Declarations → Reader Declarations
  | 0, _ => failure
  | fuel + 1, declared => do
    Reader.skipSpace
    if ← Reader.accept [']'] then return declared
    else if ← Reader.accept ['%'] then
      declared.parameter (← Reader.entityName)
      internalSubset fuel { declared with incomplete := true }
    else if ← Reader.accept "<!ENTITY".toList then internalSubset fuel (← entity declared)
    else if ← Reader.accept "<!ATTLIST".toList then
      Reader.space
      let found ← Reader.name
      Reader.skipSpace
      internalSubset fuel (← attributes found fuel declared)
    else if ← Reader.accept "<!ELEMENT".toList then internalSubset fuel (← element declared fuel)
    else if ← Reader.accept "<!NOTATION".toList then internalSubset fuel (← format declared)
    else if (← Reader.remark?).isSome then internalSubset fuel declared
    else failure

def read (declared : Declarations) (fuel : Nat) : Reader Declarations := do
  Reader.space
  let _ ← Reader.name
  Reader.skipSpace
  let outside := (← externalIdentifier?).isSome
  Reader.skipSpace
  let declared := { declared with incomplete := outside }
  let declared ← if ← Reader.accept ['['] then internalSubset fuel declared else pure declared
  Reader.skipSpace
  Reader.expect ['>']
  return declared

end DocumentType

end TersePath.Xml
