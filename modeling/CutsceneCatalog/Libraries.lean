import CutsceneCatalog.Files
import CutsceneCatalog.Markup.Encoding
import CutsceneCatalog.Settings.Variables
import CutsceneCatalog.Value

/-!
# Libraries

What is left to others: the codecs of encodings, the syntax of settings files and of files of
assignments, and the conversion of values to the kinds that settings have.  `Libraries` is what a
process has of them.  The rest of the development holds for all of them; where a statement relies on
something that one of them is known to do, it says so in a hypothesis of its own.
-/

namespace CutsceneCatalog

/-- Why the bytes of a settings file stand for no value. -/
inductive Value.Fault
  | undecodable (fault : Text.Utf8Fault)
  | malformed
  /-- Any other failure, with its kind and its wording. -/
  | failed (kind message : String)
deriving DecidableEq, Repr

/-- The libraries of a process. -/
structure Libraries where
  codecs : Markup.Codecs
  /-- The value that the bytes of a settings file stand for. -/
  valueOf : List UInt8 → Except Value.Fault Value
  /-- What a text assigns, for given variables, to the names in it, each name once.  The line breaks
  of the text are line feeds. -/
  assignments : Variables → List Char → List (String × Option String)
  /-- The file of assignments that stands in for one that is missing. -/
  fallback : Files → Option Location
  /-- A value as the location of a folder, or the kind of error that it is. -/
  toPath : Value → Except String Location
  /-- A value as a text, or the kind of error that it is. -/
  toText : Value → Except String String
  /-- A value as a whole number, or the kind of error that it is. -/
  toWhole : Value → Except String Int

end CutsceneCatalog
