import TersePath.Xml.Reader

namespace TersePath.Xml.ContentModel

def repetition : Reader Unit := do
  match ← Reader.rest with
  | c :: rest => if c == '?' || c == '*' || c == '+' then Reader.setRest rest
  | [] => return ()

mutual

def particle : (fuel : Nat) → Reader Unit
  | 0 => failure
  | fuel + 1 => do
    if ← Reader.accept ['('] then group fuel
    else
      let _ ← Reader.name
      repetition
    Reader.skipSpace

def group : (fuel : Nat) → Reader Unit
  | 0 => failure
  | fuel + 1 => do
    Reader.skipSpace
    particle fuel
    particles fuel none
    repetition

def particles : (fuel : Nat) → (separator : Option Char) → Reader Unit
  | 0, _ => failure
  | fuel + 1, separator => do
    match ← Reader.rest with
    | [] => failure
    | c :: rest =>
      Reader.setRest rest
      if c == ')' then return ()
      if (c != ',' && c != '|') || separator.any (· != c) then failure
      Reader.skipSpace
      particle fuel
      particles fuel (some c)

end

def alternatives : (fuel : Nat) → Reader Unit
  | 0 => failure
  | fuel + 1 => do
    if ← Reader.accept ")*".toList then return ()
    Reader.expect ['|']
    Reader.skipSpace
    let _ ← Reader.name
    Reader.skipSpace
    alternatives fuel

/-- Text with elements in it, after the keyword; without elements the star may be missing. -/
def mixed (fuel : Nat) : Reader Unit := do
  Reader.skipSpace
  if ← Reader.accept [')'] then
    let _ ← Reader.accept ['*']
  else alternatives fuel

def read (fuel : Nat) : Reader Unit := do
  if ← Reader.accept "EMPTY".toList then return ()
  if ← Reader.accept "ANY".toList then return ()
  Reader.expect ['(']
  Reader.skipSpace
  if ← Reader.accept "#PCDATA".toList then mixed fuel else group fuel

end TersePath.Xml.ContentModel
