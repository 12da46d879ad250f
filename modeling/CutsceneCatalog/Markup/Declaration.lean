import CutsceneCatalog.Markup.Reading

/-!
# Document declarations

The declaration that may stand at the very start of a document: a version, then an encoding, then
whether the document stands alone.  The version is required and may be anything; the other two are
optional.
-/

namespace CutsceneCatalog
namespace Markup

/-- What a document says about itself in its first line. -/
structure Declaration where
  encoding : Option String
  standalone : Bool
deriving DecidableEq, Repr

namespace Declaration

/-- A document that declares nothing. -/
def absent : Declaration := ⟨none, false⟩

/-- Reads the equals sign and the value of a part of the declaration. -/
def value : Reading (List Char) := do
  let _ ← spaces
  expect "="
  let _ ← spaces
  let cs ← quoted
  if cs.all fun c => c.isAlphanum || c == '.' || c == '-' || c == '_' then return cs else failure

/-- Reads the part that tells whether the document stands alone, and white space up to the end. -/
def standalonePart : Reading Bool := do
  expect "standalone"
  let word ← value
  let _ ← spaces
  match String.ofList word with
  | "yes" => return true
  | "no" => return false
  | _ => failure

/-- Reads the parts after the version; each has white space before it. -/
def laterParts : Reading Declaration := do
  let blank ← spaces
  if (← get).isEmpty then return absent
  else do
    unless blank do failure
    if ← accept "encoding" then
      let encoding ← value
      unless encoding.head?.any Char.isAlpha do failure
      let encoding := some (String.ofList encoding)
      let blank ← spaces
      if (← get).isEmpty then return ⟨encoding, false⟩
      else do
        unless blank do failure
        return ⟨encoding, ← standalonePart⟩
    else return ⟨none, ← standalonePart⟩

/-- Reads the whole inside of a declaration. -/
def parts : Reading Declaration := do
  someSpace
  expect "version"
  let _ ← value
  let declaration ← laterParts
  if (← get).isEmpty then return declaration else failure

/-- Splits the declaration off a document that begins with one.  A processing instruction whose
target only begins with `xml` is no declaration. -/
def read : Reading Declaration := do
  let start ← get
  if ← accept "<?xml" then
    if (← get).head?.any isSpace then
      let inside ← upTo "?>"
      let (declaration, _) ← liftM (parts inside)
      return declaration
    else
      set start
      return absent
  else return absent

end Declaration

end Markup
end CutsceneCatalog
