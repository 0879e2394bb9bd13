import TersePath.Xml.DocumentType
import TersePath.Xml.Encoding

namespace TersePath.Xml

def isVersion : List Char → Bool
  | '1' :: '.' :: rest => rest.all Char.isDigit
  | _ => false

/-- The declaration of a document after its keyword: the encoding that it names, and whether the
document stands alone. Versions other than the first one are warned of. -/
def xmlDeclaration : Reader (Option (List Char) × Bool) := do
  Reader.space
  Reader.expect "version".toList
  Reader.equalsSign
  let version ← Reader.quoted
  if !isVersion version then failure
  if version != "1.0".toList then Reader.warn
  let blank ← Reader.takeWhile isSpace
  let encoding ← if !blank.isEmpty && (← Reader.accept "encoding".toList) then do
      Reader.equalsSign
      let found ← Reader.quoted
      if !isEncodingName found then failure
      pure (some found)
    else pure none
  let blank ← if encoding.isSome then Reader.takeWhile isSpace else pure blank
  let standalone ← if !blank.isEmpty && (← Reader.accept "standalone".toList) then do
      Reader.equalsSign
      let found ← Reader.quoted
      Reader.skipSpace
      if found == "yes".toList then pure true
      else if found == "no".toList then pure false
      else failure
    else pure false
  Reader.expect "?>".toList
  return (encoding, standalone)

def prolog (standalone : Bool) (fuel : Nat) : Reader Declarations := do
  Reader.skipRemarks fuel
  let declared : Declarations := { standalone := standalone }
  if ← Reader.accept "<!DOCTYPE".toList then
    let declared ← DocumentType.read declared fuel
    Reader.skipRemarks fuel
    return declared
  else return declared

end TersePath.Xml
