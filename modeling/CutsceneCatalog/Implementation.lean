import CutsceneCatalog.Text.Lines
import CutsceneCatalog.Text.Word

/-!
# Implementation texts

The code of an instruction as it stands indented in a document, made ready for code generation: line
breaks become line feeds, the empty lines in front go, and the indentation of the first line left is
taken from every line that has it.
-/

namespace CutsceneCatalog

open Text

/-- The number of spaces that a text begins with. -/
def indentation (cs : List Char) : Nat := (cs.takeWhile (· == ' ')).length

/-- Takes an indentation from the text and from every later line that has it. -/
def outdent (indent : Nat) (cs : List Char) : List Char :=
  replaceWord '\n' (List.replicate indent ' ') ['\n'] (cs.drop indent)

/-- The code without line feeds in front and without the first line's indentation. -/
def implementationChars (code : List Char) : List Char :=
  let body := (unifyBreaks code).dropWhile (· == '\n')
  outdent (indentation body) body

/-- The code of an instruction, ready for code generation. -/
def implementationText (code : String) : String :=
  String.ofList (implementationChars code.toList)

end CutsceneCatalog
