import TersePath.Element
import TersePath.Number.Numeral
import TersePath.Text.Blank

namespace TersePath.Service

-- powers are those of the core library, whatever else is imported
attribute [local instance (high)] instPowNat

inductive Payload where
  | null
  | bool (value : Bool)
  | integer (value : Int)
  /-- A number that was written with a fraction or an exponent. -/
  | real (value : Binary64)
  | text (value : String)
  | list (items : List Payload)
  | object (fields : List (String × Payload))
deriving Inhabited

/-- A value that was read, or the places of what does not fit. -/
abbrev Checked := Except (List String)

def Checked.both {α β : Type} (a : Checked α) (b : Checked β) : Checked (α × β) :=
  match a, b with
  | .ok a, .ok b => .ok (a, b)
  | .ok _, .error places => .error places
  | .error places, .ok _ => .error places
  | .error places, .error others => .error (places ++ others)

def Checked.all {α : Type} : List (Checked α) → Checked (List α)
  | [] => .ok []
  | first :: rest => (Checked.both first (Checked.all rest)).map fun (a, others) => a :: others

def misfit {α : Type} (place : String) : Checked α := .error [place]

/-- The integer that a number equals, if it is less than `2 ^ 63` in magnitude. -/
def integerOf? (x : Binary64) : Option Int :=
  if x.isInteger then x.truncate?.filter fun n => decide (n.natAbs < 2 ^ (63 : Nat)) else none

def withoutPlus : List Char → List Char
  | '+' :: '-' :: rest => '+' :: '-' :: rest
  | '+' :: rest => rest
  | text => text

/-- What follows leading zeros, of which `last` is the last one; underscores may stand among them. The
last one stays if it is all there is before the point. -/
def afterZeros (last : Char) : List Char → Option (List Char)
  | [] => some [last]
  | c :: rest =>
    if c == '0' || c == '_' then afterZeros c rest
    else if c.isDigit || c == '-' then some (c :: rest)
    else if c == '.' then some (last :: c :: rest)
    else none

def withoutLeadingZeros : List Char → Option (List Char)
  | [] => none
  | c :: rest =>
    if c == '0' then afterZeros c rest
    else if c.isDigit || c == '-' then some (c :: rest)
    else none

def withoutFraction (text : List Char) : List Char :=
  match text.span (· != '.') with
  | (whole, _ :: zeros) => if !zeros.isEmpty && zeros.all (· == '0') then whole else text
  | (whole, []) => whole

/-- The text without its underscores, none of which may be doubled or at an end. -/
def withoutUnderscores (text : List Char) : Option (List Char) :=
  let groups := text.splitBy fun a b => (a == '_') == (b == '_')
  let doubled := groups.any fun group => group.head? == some '_' && group != ['_']
  if doubled || text.head? == some '_' || text.getLast? == some '_' then none
  else some (text.filter (· != '_'))

def maxIntegerSize : Nat := 4300

/-- An integer in a text: a sign, digits among which underscores may stand, and a fraction of zeros
only. -/
def integerIn? (text : List Char) : Option Int := do
  let text := ((text.dropWhile isWhite).reverse.dropWhile isWhite).reverse
  if maxIntegerSize < (String.ofList text).utf8ByteSize then none
  let text ← withoutUnderscores (withoutFraction (← withoutLeadingZeros (withoutPlus text)))
  let (negative, digits) := match text with
    | '-' :: digits => (true, digits)
    | digits => (false, digits)
  if digits.isEmpty || !digits.all Char.isDigit || (digits.head? == some '0' && digits != ['0']) then
    none
  let value : Int := digitsValue digits
  return if negative then -value else value

def truthIn? (text : String) : Option Bool :=
  let word := String.ofList (text.toList.map Char.toLower)
  if ["1", "t", "true", "y", "yes", "on"].contains word then some true
  else if ["0", "f", "false", "n", "no", "off"].contains word then some false
  else none

namespace Payload

def asText (place : String) : Payload → Checked String
  | text value => .ok value
  | _ => misfit place

def asInteger (place : String) : Payload → Checked Int
  | bool value => .ok (if value then 1 else 0)
  | integer value => .ok value
  | real value => (integerOf? value).elim (misfit place) .ok
  | text value => (integerIn? value.toList).elim (misfit place) .ok
  | _ => misfit place

def asCount (place : String) (payload : Payload) : Checked Nat := do
  let n ← payload.asInteger place
  if n < 0 then misfit place else return n.toNat

def asTruth (place : String) : Payload → Checked Bool
  | bool value => .ok value
  | integer value =>
    if value = 0 then .ok false else if value = 1 then .ok true else misfit place
  | real value =>
    match integerOf? value with
    | some 0 => .ok false
    | some 1 => .ok true
    | _ => misfit place
  | text value => (truthIn? value).elim (misfit place) .ok
  | _ => misfit place

def asOptional {α : Type} (read : Payload → Checked α) : Payload → Checked (Option α)
  | null => .ok none
  | payload => (read payload).map some

def asAttributes (place : String) : Payload → Checked Attributes
  | object fields =>
    (Checked.all (fields.map fun (name, value) =>
      (value.asText (place ++ "." ++ name)).map fun value => (name, value))).map
      fun entries => { given := entries }
  | _ => misfit place

def asList {α : Type} (place : String) (read : String → Payload → Checked α) :
    Payload → Checked (List α)
  | list items => .all (items.zipIdx.map fun (item, i) => read (place ++ "." ++ i.repr) item)
  | _ => misfit place

def fieldOr {α : Type} (fields : List (String × Payload)) (place name : String) (fallback : α)
    (read : String → Payload → Checked α) : Checked α :=
  match fields.lookup name with
  | none => .ok fallback
  | some value => read (place ++ "." ++ name) value

def asElement (place : String) : Payload → Checked Element
  | object fields =>
    (Checked.both (fieldOr fields place "attributes" {} asAttributes)
      (fieldOr fields place "ancestors" [] fun place => asList place asAttributes)).map
      fun (attributes, ancestors) => ⟨attributes, ancestors⟩
  | _ => misfit place

end Payload

end TersePath.Service
