import TersePath.Text.Digit

namespace TersePath.Xml.Uri

def isUnreserved (c : Char) : Bool := c.isAlphanum || "-._~".toList.contains c

def isDelimiter (c : Char) : Bool := "!$&'()*+,;=".toList.contains c

def isHostPart (c : Char) : Bool := isUnreserved c || isDelimiter c

def isUserPart (c : Char) : Bool := isHostPart c || c == ':'

def isSegmentPart (c : Char) : Bool := isUserPart c || c == '@'

def isPathPart (c : Char) : Bool := isSegmentPart c || c == '/'

def isQueryPart (c : Char) : Bool := isPathPart c || c == '?'

def isFragmentPart (c : Char) : Bool := isQueryPart c || c == '[' || c == ']'

def skip (p : Char → Bool) : List Char → List Char
  | [] => []
  | '%' :: a :: b :: rest =>
    if (hexDigit? a).isSome && (hexDigit? b).isSome then skip p rest else '%' :: a :: b :: rest
  | c :: rest => if p c then skip p rest else c :: rest

def afterScheme? : List Char → Option (List Char)
  | [] => none
  | c :: rest =>
    if c.isAlpha then
      match rest.dropWhile fun c => c.isAlphanum || c == '+' || c == '-' || c == '.' with
      | ':' :: rest => some rest
      | _ => none
    else none

/-- What follows a decimal number of up to three digits that is below 260. -/
def afterOctet? : List Char → Option (List Char)
  | [] => none
  | a :: rest =>
    if !a.isDigit then none
    else
      match rest.takeWhile Char.isDigit with
      | [] => some rest
      | [_] => if a != '0' then some (rest.drop 1) else none
      | b :: _ => if a == '1' || (a == '2' && b ≤ '5') then some (rest.drop 2) else none

def afterAddress? (text : List Char) : Option (List Char) := do
  let point? := fun (rest : List Char) => if rest.head? == some '.' then some (rest.drop 1) else none
  let rest ← (afterOctet? text).bind point?
  let rest ← (afterOctet? rest).bind point?
  let rest ← (afterOctet? rest).bind point?
  afterOctet? rest

def afterHost? (text : List Char) : Option (List Char) :=
  match text with
  | '[' :: rest =>
    match rest.dropWhile (· != ']') with
    | [] => none
    | _ :: rest => some rest
  | _ => some ((afterAddress? text).getD (skip isHostPart text))

def maxService : Nat := 2147483647

def afterServer? (text : List Char) : Option (List Char) := do
  match ← afterHost? text with
  | ':' :: rest =>
    let digits := rest.takeWhile Char.isDigit
    if digits.isEmpty || maxService < digitsValue digits then none
    some (rest.dropWhile Char.isDigit)
  | rest => some rest

/-- What follows an authority: a user before an at sign, and a server. -/
def afterAuthority? (text : List Char) : Option (List Char) :=
  match skip isUserPart text with
  | '@' :: rest => afterServer? rest
  | _ => afterServer? text

def isTail (text : List Char) : Bool :=
  let rest := match text with
    | '?' :: rest => skip isQueryPart rest
    | rest => rest
  match rest with
  | '#' :: rest => (skip isFragmentPart rest).isEmpty
  | rest => rest.isEmpty

def isHierarchy (text : List Char) : Bool :=
  match text with
  | '/' :: '/' :: rest =>
    match afterAuthority? rest with
    | none => false
    | some ('/' :: rest) => isTail (skip isPathPart rest)
    | some rest => isTail rest
  | _ => isTail (skip isPathPart text)

def isAbsolute (text : List Char) : Bool := (afterScheme? text).any isHierarchy

/-- Whether a text without a scheme is a reference; its first segment has no colon. -/
def isRelative (text : List Char) : Bool :=
  isHierarchy text && ((text.takeWhile fun c => c != '/' && c != '?' && c != '#').all (· != ':'))

def isReference (text : List Char) : Bool := isAbsolute text || isRelative text

end TersePath.Xml.Uri
