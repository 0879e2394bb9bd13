import TersePath.Text.Digit
import TersePath.Xml.Node

/-!
Readers of XML text. A reader takes pieces off the front of the text or fails, which refuses the
document. It may also report a flaw, which by itself refuses the document too, or give a warning: only
the last report counts. After a flaw, text that is left over at the end no longer fails.
-/

namespace TersePath.Xml

structure EntityContent where
  nodes : List Node
  size : Nat

structure Progress where
  rest : List Char
  flawed : Bool := false
  flaws : Nat := 0
  warnings : Nat := 0
  /-- How many bytes entities have put in so far. -/
  expansion : Nat := 0
  identifiers : List (List Char) := []
  contents : List (List Char × EntityContent) := []

abbrev Reader := StateT Progress Option

namespace Reader

def rest : Reader (List Char) := do return (← get).rest

def setRest (rest : List Char) : Reader Unit := modify fun progress => { progress with rest }

def maxReports : Nat := 100

def flaw : Reader Unit := modify fun progress =>
  if progress.flaws < maxReports then
    { progress with flawed := true, flaws := progress.flaws + 1 }
  else progress

def warn : Reader Unit := modify fun progress =>
  if progress.warnings < maxReports then
    { progress with flawed := false, warnings := progress.warnings + 1 }
  else progress

/-- Ends the reading of a text. That some of it is left over fails, unless a flaw has been reported. -/
def finish : Reader Unit := do
  let progress ← get
  if !progress.rest.isEmpty && progress.flaws == 0 then failure

def accept (expected : List Char) : Reader Bool := do
  let text ← rest
  if expected.isPrefixOf text then
    setRest (text.drop expected.length)
    return true
  else return false

def expect (expected : List Char) : Reader Unit := do
  if ← accept expected then return () else failure

def takeWhile (p : Char → Bool) : Reader (List Char) := do
  let text ← rest
  setRest (text.dropWhile p)
  return text.takeWhile p

def skipSpace : Reader Unit := do let _ ← takeWhile isSpace

def space : Reader Unit := do if (← takeWhile isSpace).isEmpty then failure

def on {α : Type} (text : List Char) (read : Reader α) : Reader (α × List Char) := do
  let outer ← rest
  setRest text
  let value ← read
  let left ← rest
  setRest outer
  return (value, left)

def splitAtMark (mark : List Char) : List Char → Option (List Char × List Char)
  | [] => none
  | c :: rest =>
    if mark.isPrefixOf (c :: rest) then some ([], (c :: rest).drop mark.length)
    else (splitAtMark mark rest).map fun (front, after) => (c :: front, after)

def allow (text : List Char) : Reader (List Char) :=
  if text.all isAllowed then return text else failure

def upTo (mark : List Char) : Reader (List Char) := do
  match splitAtMark mark (← rest) with
  | none => failure
  | some (front, after) =>
    setRest after
    return front

def literal : Reader (List Char) := do
  if ← accept ['"'] then upTo ['"']
  else do
    expect ['\'']
    upTo ['\'']

def quoted : Reader (List Char) := do allow (← literal)

def name : Reader (List Char) := do
  let found ← takeWhile isTokenPart
  if isName found then return found else failure

/-- A name that may have a prefix. Colons in other places are a flaw. -/
def qualifiedName : Reader Name := do
  let found := Name.ofText (← name)
  if !found.isQualified then flaw
  return found

def unqualifiedName : Reader (List Char) := do
  let found ← name
  if found.contains ':' then flaw
  return found

def equalsSign : Reader Unit := do
  skipSpace
  expect ['=']
  skipSpace

def numberIn (base : Nat) (digits : List Char) : Nat :=
  digits.foldl (fun value c => base * value + (hexDigit? c).getD 0) 0

def characterReference : Reader Char := do
  let base := if ← accept ['x'] then 16 else 10
  let digits ← takeWhile fun c => (hexDigit? c).any (· < base)
  expect [';']
  let code := numberIn base digits
  if h : code.isValidChar then
    let c := Char.ofNatAux code h
    if !digits.isEmpty && isAllowed c then return c else failure
  else failure

def entityName : Reader (List Char) := do
  let found ← name
  expect [';']
  return found

def maxExpansion : Nat := 1000000

/-- What each use of an entity counts for beside its bytes. -/
def useCost : Nat := 20

def spend (size : Nat) : Reader Unit := do
  let spent := (← get).expansion + size + useCost
  if maxExpansion < spent then failure
  modify fun progress => { progress with expansion := spent }

def identify (identifier : List Char) : Reader Unit := do
  let known := (← get).identifiers
  if known.contains identifier then flaw
  else if !identifier.isEmpty then
    modify fun progress => { progress with identifiers := identifier :: known }

end Reader

def unifyLineEnds : List Char → List Char
  | [] => []
  | '\r' :: '\n' :: rest => '\n' :: unifyLineEnds rest
  | '\r' :: rest => '\n' :: unifyLineEnds rest
  | c :: rest => c :: unifyLineEnds rest

end TersePath.Xml
