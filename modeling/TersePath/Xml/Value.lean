import TersePath.Xml.Declarations

namespace TersePath.Xml

/-- A value with its references replaced. White space becomes spaces, unless a reference to a character
puts it in. Entities are replaced to a depth of `depth`, and each text is at most `fuel` long. -/
def expandValue (declared : Declarations) : (depth fuel : Nat) → List Char → Reader (List Char)
  | _, _, [] => return []
  | _, 0, _ => failure
  | depth, fuel + 1, c :: rest => do
    if c == '<' then failure
    else if c == '&' then
      match rest with
      | '#' :: rest =>
        let (c, rest) ← Reader.on rest Reader.characterReference
        return c :: (← expandValue declared depth fuel rest)
      | _ =>
        let (found, rest) ← Reader.on rest Reader.entityName
        match ← declared.resolve found with
        | none => expandValue declared depth fuel rest
        | some (.inl c) => return c :: (← expandValue declared depth fuel rest)
        | some (.inr content) =>
          match depth with
          | 0 => failure
          | depth + 1 =>
            Reader.spend (String.ofList content).utf8ByteSize
            let inner ← expandValue declared depth content.length content
            return inner ++ (← expandValue declared (depth + 1) fuel rest)
    else return (if isSpace c then ' ' else c) :: (← expandValue declared depth fuel rest)

def attributeValue (declared : Declarations) (depth : Nat) (type : AttributeType) :
    Reader (List Char) := do
  let text := unifyLineEnds (← Reader.quoted)
  let value ← expandValue declared depth text.length text
  return if type == .text then value else collapseSpaces value

end TersePath.Xml
