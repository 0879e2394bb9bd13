import TersePath.Xml.Content
import TersePath.Xml.Prolog

/-!
Reading of XML documents. A text that is not well formed has no tree, nor has one in which the last
report is that of a flaw.
-/

namespace TersePath.Xml

/-- The reading of a document after its own declaration, the text decoded as that says, and whether the
document stands alone. A mark in front says that the text is in UTF-8. -/
def afterDeclaration (text : List Char) : Option (Progress × Bool) :=
  let (marked, text) := match text with
    | '\ufeff' :: rest => (true, rest)
    | _ => (false, text)
  if "<?xml".toList.isPrefixOf text && ((text.drop 5).head?.any isSpace) then do
    let ((encoding, standalone), after) ← xmlDeclaration.run { rest := text.drop 5 }
    match encoding with
    | none => return (after, standalone)
    | some name =>
      let decoded ← if marked then some after.rest else reread name after.rest
      return ({ after with rest := decoded }, standalone)
  else some ({ rest := text }, false)

/-- The root of a document with nothing behind it but comments and instructions. Line ends are unified
once the document type is read, since the values of entities keep theirs. -/
def document (standalone : Bool) (fuel : Nat) : Reader Node := do
  let declared ← prolog standalone fuel
  Reader.setRest (unifyLineEnds (← Reader.rest))
  let root ← Reader.root declared fuel
  Reader.skipRemarks fuel
  Reader.finish
  return root

def readDocument (text : List Char) : Option Node := do
  let (before, standalone) ← afterDeclaration text
  let (root, after) ← (document standalone (before.rest.length + 1)).run before
  if after.flawed then none else some root

end TersePath.Xml
