import CutsceneCatalog.Files.Pattern
import CutsceneCatalog.Import

/-!
# Registries

A registry holds definitions by their opcodes, in the order in which they were registered.  No
opcode is registered twice.  Loading a folder is all or nothing: only when every file has been
imported, and no opcode clashes, are the definitions registered.

A call works on a `Ledger`, which is the registry together with the records left so far.  Whatever a
call has done to it stays done when the call fails later.  `Registry.register`, `Registry.loadFile`
and `Registry.loadFolder` make one such call and give back the registry of a call that succeeds.
-/

namespace CutsceneCatalog

/-- Definitions by opcode, oldest first. -/
structure Registry where
  entries : List (String × Definition)
deriving Repr

/-- Why a folder could not be loaded. -/
inductive LoadFailure
  | failed (failure : ImportFailure)
  | pattern (fault : PatternFault)
deriving DecidableEq, Repr

namespace Registry

/-- A registry without definitions. -/
def empty : Registry := ⟨[]⟩

/-- The registered opcodes. -/
def opcodes (registry : Registry) : List String := registry.entries.map Prod.fst

/-- The registered definitions. -/
def definitions (registry : Registry) : List Definition := registry.entries.map Prod.snd

/-- The number of registered definitions. -/
def size (registry : Registry) : Nat := registry.entries.length

/-- Whether an opcode is registered. -/
def contains (registry : Registry) (opcode : String) : Bool := registry.opcodes.contains opcode

/-- The definition of an opcode. -/
def get? (registry : Registry) (opcode : String) : Option Definition :=
  registry.entries.lookup opcode

/-- Puts a definition under an opcode: in the place of the one that is there, or else at the end. -/
def put (registry : Registry) (opcode : String) (definition : Definition) : Registry :=
  if registry.contains opcode then
    ⟨registry.entries.map fun (key, old) => if key = opcode then (key, definition) else (key, old)⟩
  else ⟨registry.entries ++ [(opcode, definition)]⟩

/-- Puts definitions under their own opcodes, one after the other. -/
def putAll (registry : Registry) (definitions : List Definition) : Registry :=
  definitions.foldl (fun registry definition => registry.put definition.opcode definition) registry

/-- The first definition whose opcode has been seen. -/
def firstClash : (seen : List String) → List (String × Definition) → Option ImportError
  | _, [] => none
  | seen, (path, definition) :: rest =>
      if seen.contains definition.opcode then some ⟨.duplicateOpcode definition.opcode, some path⟩
      else firstClash (seen ++ [definition.opcode]) rest

/-- The pattern of a folder's files: the one given, unless it is empty. -/
def patternOr (importer : Importer) (pattern : Option String) : String :=
  match pattern with
  | some pattern => if pattern = "" then importer.settings.definitionGlob else pattern
  | none => importer.settings.definitionGlob

end Registry

/-- A registry and the records left so far, oldest first. -/
structure Ledger where
  registry : Registry
  records : List LogRecord
deriving Repr

/-- A call on a ledger, which keeps what has been done to it when the call fails. -/
abbrev Call (ε α : Type) := ExceptT ε (StateM Ledger) α

namespace Call

variable {ε α : Type}

/-- What a call answers, and the ledger it leaves. -/
def on (call : Call ε α) (ledger : Ledger) : Except ε α × Ledger :=
  StateT.run (ExceptT.run call) ledger

/-- Leaves records. -/
def record (entries : List LogRecord) : Call ε Unit :=
  modify fun ledger => { ledger with records := ledger.records ++ entries }

/-- Registers definitions under their opcodes, whatever is there. -/
def store (definitions : List Definition) : Call ε Unit :=
  modify fun ledger => { ledger with registry := ledger.registry.putAll definitions }

/-- Imports the definition at a path. -/
def importing (importer : Importer) (path : String) : Call ImportFailure Definition := do
  let (outcome, entries) := importer.load path
  record entries
  MonadExcept.ofExcept outcome

/-- Registers a definition, unless its opcode is registered. -/
def register (definition : Definition) (file : Option String) : Call ImportError Unit := do
  if (← get).registry.contains definition.opcode then
    throw ⟨.duplicateOpcode definition.opcode, file⟩
  store [definition]

/-- Imports a file and registers its definition. -/
def loadFile (importer : Importer) (path : String) : Call ImportFailure Definition := do
  let definition ← importing importer path
  (register definition (some path)).adapt ImportFailure.refused
  return definition

/-- Imports files, up to the first that fails. -/
def importAll (importer : Importer) (paths : List String) :
    Call ImportFailure (List (String × Definition)) :=
  paths.mapM fun path => do return (path, ← importing importer path)

/-- Imports the files of a folder that match a pattern, and registers their definitions. -/
def loadFolder (importer : Importer) (folder : String) (pattern : Option String) :
    Call LoadFailure (List Definition) := do
  let pattern := Registry.patternOr importer pattern
  match importer.files.find importer.host.current (.ofString folder) pattern with
  | .error fault => throw (.pattern fault)
  | .ok found =>
      let imported ← (importAll importer (found.map Location.text)).adapt LoadFailure.failed
      match Registry.firstClash (← get).registry.opcodes imported with
      | some error => throw (.failed (.refused error))
      | none =>
          let loaded := imported.map Prod.snd
          store loaded
          record [.loadedFolder loaded.length folder]
          return loaded

/-- Makes a call on a registry: the answer, with the registry as it is then, and the new records. -/
def answer (call : Call ε α) (registry : Registry) : Except ε (α × Registry) × List LogRecord :=
  let (outcome, ledger) := call.on ⟨registry, []⟩
  (outcome.map fun a => (a, ledger.registry), ledger.records)

end Call

namespace Registry

/-- Registers a definition, unless its opcode is registered. -/
def register (registry : Registry) (definition : Definition) (file : Option String) :
    Except ImportError Registry :=
  ((Call.register definition file).answer registry).1.map Prod.snd

/-- Imports a file and registers its definition. -/
def loadFile (registry : Registry) (importer : Importer) (path : String) :
    Except ImportFailure (Definition × Registry) × List LogRecord :=
  (Call.loadFile importer path).answer registry

/-- Imports the files of a folder that match a pattern, and registers their definitions. -/
def loadFolder (registry : Registry) (importer : Importer) (folder : String)
    (pattern : Option String) : Except LoadFailure (List Definition × Registry) × List LogRecord :=
  (Call.loadFolder importer folder pattern).answer registry

end Registry

end CutsceneCatalog
