import TersePath.Service.Payload

namespace TersePath.Service

abbrev JsonReader := StateT (List Char) Option

namespace JsonReader

def skipBlanks : JsonReader Unit :=
  modify fun text => text.dropWhile fun c => c == ' ' || c == '\t' || c == '\n' || c == '\r'

def next : JsonReader Char := do
  skipBlanks
  match ← get with
  | [] => failure
  | c :: rest =>
    set rest
    return c

def expect (expected : List Char) : JsonReader Unit := do
  let text ← get
  if expected.isPrefixOf text then set (text.drop expected.length) else failure

def codeUnit : JsonReader Nat := do
  let text ← get
  let digits := text.take 4
  if digits.length < 4 then failure
  match digits.mapM hexDigit? with
  | none => failure
  | some values =>
    set (text.drop 4)
    return values.foldl (fun unit value => 16 * unit + value) 0

def escapedUnits : JsonReader Char := do
  let high ← codeUnit
  if 0xd800 ≤ high && high < 0xdc00 then
    expect ['\\', 'u']
    let low ← codeUnit
    if 0xdc00 ≤ low && low < 0xe000 then
      return Char.ofNat (0x10000 + (high - 0xd800) * 0x400 + (low - 0xdc00))
    else failure
  else if 0xdc00 ≤ high && high < 0xe000 then failure
  else return Char.ofNat high

def escaped (c : Char) : JsonReader Char :=
  match c with
  | 'n' => return '\n'
  | 't' => return '\t'
  | 'r' => return '\r'
  | 'b' => return '\x08'
  | 'f' => return '\x0c'
  | 'u' => escapedUnits
  | _ => if c == '"' || c == '\\' || c == '/' then return c else failure

def quotedRest : (fuel : Nat) → JsonReader (List Char)
  | 0 => failure
  | fuel + 1 => do
    match ← get with
    | [] => failure
    | '"' :: rest =>
      set rest
      return []
    | '\\' :: c :: rest =>
      set rest
      let c ← escaped c
      return c :: (← quotedRest fuel)
    | c :: rest =>
      if c.toNat < 0x20 then failure
      set rest
      return c :: (← quotedRest fuel)

def number (c : Char) : JsonReader Payload := do
  let isPart := fun (c : Char) => c.isDigit || "+-.eE".toList.contains c
  let text := c :: (← get).takeWhile isPart
  modify fun rest => rest.dropWhile isPart
  let digits := if c == '-' then text.drop 1 else text
  if !digits.isEmpty && digits.all Char.isDigit then
    let value : Int := digitsValue digits
    return .integer (if c == '-' then -value else value)
  else
    match Numeral.read? text with
    | none => failure
    | some value => return .real value.toBinary64

mutual

def value : (fuel : Nat) → JsonReader Payload
  | 0 => failure
  | fuel + 1 => do
    match ← next with
    | '"' => return .text (String.ofList (← quotedRest ((← get).length + 1)))
    | '[' => do
      skipBlanks
      if (← get).head? == some ']' then
        expect [']']
        return .list []
      else return .list (← items fuel)
    | '\x7b' => do
      skipBlanks
      if (← get).head? == some '\x7d' then
        expect ['\x7d']
        return .object []
      else return .object (← fields fuel)
    | 't' => do
      expect "rue".toList
      return .bool true
    | 'f' => do
      expect "alse".toList
      return .bool false
    | 'n' => do
      expect "ull".toList
      return .null
    | c => if c.isDigit || c == '-' then number c else failure

def items : (fuel : Nat) → JsonReader (List Payload)
  | 0 => failure
  | fuel + 1 => do
    let item ← value fuel
    match ← next with
    | ',' => return item :: (← items fuel)
    | ']' => return [item]
    | _ => failure

def fields : (fuel : Nat) → JsonReader (List (String × Payload))
  | 0 => failure
  | fuel + 1 => do
    if (← next) != '"' then failure
    let name := String.ofList (← quotedRest ((← get).length + 1))
    if (← next) != ':' then failure
    let content ← value fuel
    match ← next with
    | ',' => return (name, content) :: (← fields fuel)
    | '\x7d' => return [(name, content)]
    | _ => failure

end

end JsonReader

/-- The value that a JSON text writes, with nothing but blanks around it. -/
def Payload.ofJson? (text : List Char) : Option Payload :=
  match (JsonReader.value (text.length + 1)).run text with
  | none => none
  | some (payload, rest) => if rest.all Char.isWhitespace then some payload else none

end TersePath.Service
