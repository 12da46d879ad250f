import CutsceneCatalog.Markup.Declaration
import CutsceneCatalog.Markup.Encoding
import CutsceneCatalog.Markup.Node
import CutsceneCatalog.Text.Lines

/-!
# Documents

Reading a whole document.  A document given as text ignores its declared encoding; one given as
bytes is decoded by its byte order mark and its declaration (`Encoding`), and is UTF-8 if neither
says otherwise.  A document that cannot be read is malformed, without any more being told, except
where the codec of its declared encoding fails.
-/

namespace CutsceneCatalog
namespace Markup

/-- A document, as text or as bytes. -/
inductive Source
  | text (s : String)
  | bytes (bs : List UInt8)
deriving Repr

/-- A reading step on a whole document, whose failure means that it is malformed. -/
def wellFormed {α : Type} : Option α → Except Fault α
  | some a => .ok a
  | none => .error .malformed

/-- Reads what may stand before the root element: comments, processing instructions and one document
type. -/
def prolog : (fuel : Nat) → DocType → (typed : Bool) → Reading DocType
  | 0, _, _ => failure
  | fuel + 1, doc, typed => do
      let _ ← spaces
      if ← accept "<!--" then
        comment
        prolog fuel doc typed
      else if ← accept "<?" then
        instruction
        prolog fuel doc typed
      else if ← accept "<!DOCTYPE" then
        if typed then failure
        let doc ← DocType.read doc.standalone
        prolog fuel doc true
      else return doc

/-- The tree of a document's text after its declaration: one element, with nothing but blanks and
comments around it. -/
def Node.ofText? (standalone : Bool) (cs : List Char) : Option Node := do
  if !cs.all isLegal then failure
  let cs := Text.unifyBreaks cs
  let (doc, rest) ← prolog (cs.length + 1) (.empty standalone) false cs
  let tokens ← Token.list? rest
  let (inside, outside) ← Token.splitElement? 0 [] tokens
  if !outside.all Token.isBlank then failure
  let events ← Event.list? doc inside
  Node.ofEvents? events

/-- The text without the byte order mark that may stand in front. -/
def dropMark : List Char → List Char
  | '\uFEFF' :: rest => rest
  | rest => rest

/-- The tree of a document.  Its declaration is read as the first bytes show, and what follows in
the encoding that it declares. -/
def Node.ofSource (codecs : Codecs) : Source → Except Fault Node
  | .text s => do
      let (declaration, rest) ← wellFormed (Declaration.read (dropMark s.toList))
      wellFormed (Node.ofText? declaration.standalone rest)
  | .bytes bs => do
      let (current, bs) := Encoding.detect bs
      let seen := current.glimpse bs
      let (declaration, rest) ← wellFormed (Declaration.read seen)
      let encoding ← match declaration.encoding with
        | some name => current.declared codecs name
        | none => .ok current
      let passed := (seen.length - rest.length) * current.width
      let cs ← wellFormed (encoding.decode? (bs.drop passed))
      wellFormed (Node.ofText? declaration.standalone cs)

end Markup
end CutsceneCatalog
