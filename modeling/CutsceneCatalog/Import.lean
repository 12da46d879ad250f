import CutsceneCatalog.Definition
import CutsceneCatalog.Element.Assembly

/-!
# Imports

Importing the definition in a file.  An import leaves records of what it did: one when it starts and
one when it ends, be it with a definition or with an import error.  A document whose codec fails
ends an import in another way, which is no import error and leaves no second record.
-/

namespace CutsceneCatalog

/-- How much a record matters. -/
inductive LogLevel
  | debug
  | info
  | error
deriving DecidableEq, Repr

/-- A record of what was done. -/
inductive LogRecord
  | importing (path : String)
  | imported (opcode path : String) (parameters rules : Nat)
  | failed (error : ImportError)
  | loadedFolder (count : Nat) (folder : String)
deriving DecidableEq, Repr

namespace LogRecord

/-- The level of a record. -/
def level : LogRecord → LogLevel
  | importing .. => .debug
  | imported .. => .info
  | failed .. => .error
  | loadedFolder .. => .info

/-- The wording of a record. -/
def message : LogRecord → String
  | importing path => "Importing instruction definition from " ++ path
  | imported opcode path parameters rules =>
      "Imported instruction '" ++ opcode ++ "' from " ++ path ++ " (" ++ toString parameters
        ++ " parameters, " ++ toString rules ++ " compile rules)"
  | failed error => "Failed to import instruction definition: " ++ error.message
  | loadedFolder count folder =>
      "Loaded " ++ toString count ++ " instruction definitions from " ++ folder

end LogRecord

/-- Why an import gave no definition. -/
inductive ImportFailure
  | refused (error : ImportError)
  /-- The codec of the document's encoding failed. -/
  | undecoded (fault : Markup.CodecFault)
deriving DecidableEq, Repr

/-- The root element of a document, which may be from a file. -/
def Element.parse (codecs : Markup.Codecs) (file : Option String) (source : Markup.Source) :
    Except ImportFailure Element :=
  match Element.ofSource codecs source with
  | .ok root => .ok root
  | .error .malformed => .error (.refused ⟨.document .malformed, file⟩)
  | .error (.codec fault) => .error (.undecoded fault)

/-- What an import starts from. -/
structure Importer where
  files : Files
  host : Host
  settings : Settings

namespace Importer

/-- The root element of the document in a file.  An image is no document. -/
def document (importer : Importer) (path : Location) : Except ImportFailure Element :=
  let refuse (fault : DocumentFault) : Except ImportFailure Element :=
    .error (.refused ⟨.document fault, some path.text⟩)
  match importer.files.read importer.host.current path with
  | .error fault => refuse (.unreadable path.text fault)
  | .ok (.image ..) => refuse .malformed
  | .ok (.bytes bs) =>
      Element.parse importer.host.libraries.codecs (some path.text) (.bytes bs)

/-- The definition in a file, without any record. -/
def definition (importer : Importer) (path : Location) : Except ImportFailure Definition := do
  let root ← importer.document path
  let around : Surroundings := ⟨importer.files, importer.host, importer.settings, path.parent⟩
  match Definition.read around (some path.text) root with
  | .ok definition => return definition
  | .error error => throw (.refused error)

/-- What an import records of its end: nothing, if the codec of its document failed. -/
def recordsOfEnd (location : Location) : Except ImportFailure Definition → List LogRecord
  | .ok definition =>
      [.imported definition.opcode location.text definition.parameters.length
        definition.rules.length]
  | .error (.refused error) => [.failed error]
  | .error (.undecoded _) => []

/-- Imports the definition at a path, and records it. -/
def load (importer : Importer) (path : String) : Except ImportFailure Definition × List LogRecord :=
  let location := importer.settings.locate importer.host path
  let outcome := importer.definition location
  (outcome, .importing location.text :: recordsOfEnd location outcome)

/-- Imports the definition at a path for a host that passes options along.  They are accepted so
that hosts can call every importer in one way; no option means anything here. -/
def loadWith {α : Type} (importer : Importer) (path : String)
    (_options : Option (List (String × α))) : Except ImportFailure Definition × List LogRecord :=
  importer.load path

end Importer

end CutsceneCatalog
