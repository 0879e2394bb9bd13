import TersePath.Xml.Reader

namespace TersePath.Xml

/-- Targets that begin with the reserved letters and may be used. -/
def knownTargets : List (List Char) := ["xml-stylesheet".toList, "xml-model".toList]

def isReserved (target : List Char) : Bool := (target.take 3).map Char.toLower == "xml".toList

namespace Reader

/-- The target of an instruction. The reserved letters alone are none, and other targets that begin
with them are warned of. -/
def target : Reader (List Char) := do
  let found ← name
  if isReserved found then
    if found.length = 3 then failure
    if !knownTargets.contains found then warn
  if found.contains ':' then flaw
  return found

def comment : Reader Node := do
  let content ← allow (← upTo "--".toList)
  expect ['>']
  return .comment content

def instruction : Reader Node := do
  let found := String.ofList (← target)
  if ← accept "?>".toList then return .instruction found none
  space
  return .instruction found (some (← allow (← upTo "?>".toList)))

def remark? : Reader (Option Node) := do
  if ← accept "<!--".toList then return some (← comment)
  else if ← accept "<?".toList then return some (← instruction)
  else return none

def skipRemarks : (fuel : Nat) → Reader Unit
  | 0 => failure
  | fuel + 1 => do
    skipSpace
    if (← remark?).isSome then skipRemarks fuel

end Reader

end TersePath.Xml
