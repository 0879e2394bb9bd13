import TersePath.Xml.Character

namespace TersePath.Xml

def isPlainName : List Char → Bool
  | [] => false
  | c :: rest => isNameStart c && rest.all isNamePart

def isTokenPart (c : Char) : Bool := isNamePart c || c == ':'

def isToken (text : List Char) : Bool := !text.isEmpty && text.all isTokenPart

def isName : List Char → Bool
  | [] => false
  | c :: rest => (isNameStart c || c == ':') && rest.all isTokenPart

def words (text : List Char) : List (List Char) :=
  (text.splitBy fun a b => (a == ' ') == (b == ' ')).filter fun piece => piece.head? != some ' '

def collapseSpaces (text : List Char) : List Char := ((words text).intersperse [' ']).flatten

structure Name where
  qualifier : Option (List Char)
  base : List Char
deriving DecidableEq

namespace Name

/-- The name that a text writes. Text whose colons do not divide it into two plain names is a name as
a whole. -/
def ofText (text : List Char) : Name :=
  let front := text.takeWhile (· != ':')
  match text.dropWhile (· != ':') with
  | ':' :: rest =>
    if isPlainName front && isPlainName rest then ⟨some front, rest⟩ else ⟨none, text⟩
  | _ => ⟨none, text⟩

def text (name : Name) : List Char :=
  match name.qualifier with
  | none => name.base
  | some qualifier => qualifier ++ ':' :: name.base

def isQualified (name : Name) : Bool := !name.base.contains ':'

end Name

end TersePath.Xml
