import CutsceneCatalog.Files

/-!
# Import errors

Why a definition cannot be imported.  An error keeps its cause and, if it is known, the file in
which it arose; its wording names the file at the end.  Only the structure of a document is ever an
error: a field that is missing or malformed has its default.
-/

namespace CutsceneCatalog

/-- Why a document could not be read. -/
inductive DocumentFault
  | malformed
  | unreadable (path : String) (fault : FileFault)
  | described (message : String)
deriving DecidableEq, Repr

/-- Why an element cannot be read as a rule. -/
inductive RuleFault
  | notARule (tag : String)
  | tooDeep (depth maxDepth : Int)
deriving DecidableEq, Repr

/-- What kept a definition from being imported. -/
inductive ImportCause
  | general (message : String)
  | document (fault : DocumentFault)
  /-- A child of the root is not part of the vocabulary. -/
  | elementNotAllowed (tag : String)
  | rule (fault : RuleFault)
  | duplicateOpcode (opcode : String)
deriving DecidableEq, Repr

/-- The wording of a cause.  What exactly is wrong with a malformed document is left open. -/
def ImportCause.message : ImportCause → String
  | .general message => message
  | .document .malformed => "Could not parse XML: <detail>"
  | .document (.unreadable path fault) => "Could not read file: " ++ fault.message path
  | .document (.described message) => message
  | .elementNotAllowed tag =>
      "Encountered XML element with name '" ++ tag ++ "'. This name is not allowed."
  | .rule (.notARule tag) =>
      "Tried to parse XML element '" ++ tag
        ++ "' as a compile rule, but the name does not represent a compile rule."
  | .rule (.tooDeep depth maxDepth) =>
      "Compile rules nested " ++ toString depth ++ " levels deep; the maximum is "
        ++ toString maxDepth ++ "."
  | .duplicateOpcode opcode =>
      "An instruction definition with opcode '" ++ opcode ++ "' is already registered."

/-- A cause, and the file in which it arose. -/
structure ImportError where
  cause : ImportCause
  file : Option String
deriving DecidableEq, Repr

/-- The wording of an error, which names the file unless its name is empty. -/
def ImportError.message (e : ImportError) : String :=
  match e.file with
  | none => e.cause.message
  | some file =>
      if file = "" then e.cause.message
      else e.cause.message ++ " (in instruction definition file '" ++ file ++ "')"

end CutsceneCatalog
