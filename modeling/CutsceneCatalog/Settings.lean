import CutsceneCatalog.Libraries

/-!
# Settings

What decides where definition files are found and how deep their rules may nest.  Two folders stand
behind the virtual roots of paths; the greatest depth of a rule is one at least, so that a rule can
stand in a definition at all.
-/

namespace CutsceneCatalog

/-- What a process finds itself with: its folders, and its libraries. -/
structure Host where
  /-- Where relative paths start, by its names from the root. -/
  current : List Part
  /-- The folder of the user. -/
  home : Location
  /-- The folder of the installed program. -/
  installation : Location
  libraries : Libraries

/-- The settings of an import. -/
structure Settings where
  projectRoot : Location
  userFolder : Location
  maxRuleDepth : Int
  definitionGlob : String
  one_le_depth : 1 ≤ maxRuleDepth
deriving DecidableEq, Repr

/-- The greatest depth of a rule where nothing else is set. -/
def standardRuleDepth : Int := 64

/-- The settings where nothing is set. -/
def Settings.standard (host : Host) : Settings where
  projectRoot := host.installation
  userFolder := host.home.under (.ofString ".local/share/cutscene_importer")
  maxRuleDepth := standardRuleDepth
  definitionGlob := "*.xml"
  one_le_depth := by decide

/-! ## Virtual paths -/

/-- The two roots of virtual paths. -/
inductive VirtualRoot
  | project
  | user
deriving DecidableEq, Repr

/-- What a virtual path of this root begins with. -/
def VirtualRoot.marker : VirtualRoot → String
  | .project => "res://"
  | .user => "user://"

/-- The folder behind a root. -/
def Settings.folder (settings : Settings) : VirtualRoot → Location
  | .project => settings.projectRoot
  | .user => settings.userFolder

/-- The root of a virtual path and what follows its marker. -/
def VirtualRoot.split? (path : String) : Option (VirtualRoot × String) :=
  match path.toList with
  | 'r' :: 'e' :: 's' :: ':' :: '/' :: '/' :: rest => some (.project, String.ofList rest)
  | 'u' :: 's' :: 'e' :: 'r' :: ':' :: '/' :: '/' :: rest => some (.user, String.ofList rest)
  | _ => none

theorem VirtualRoot.split?_marker (root : VirtualRoot) (rest : String) :
    split? (root.marker ++ rest) = some (root, rest) := by
  cases root <;> simp [split?, marker, String.toList_append]

/-- Whether a path starts at a virtual root. -/
def isVirtual (path : String) : Bool := (VirtualRoot.split? path).isSome

/-- The file that a virtual path stands for: what follows the marker is taken from the root's
folder, and a second leading slash is lost. -/
def Settings.locateVirtual (settings : Settings) (host : Host) (root : VirtualRoot)
    (rest : String) : Location :=
  let target := ((settings.folder root).under (.ofString rest)).normal host.current
  { target with anchor := .root }

/-- The file that a plain path stands for. -/
def locatePlain (host : Host) (path : String) : Location :=
  (Location.ofString path).normal host.current

/-- The absolute location that a path stands for. -/
def Settings.locate (settings : Settings) (host : Host) (path : String) : Location :=
  match VirtualRoot.split? path with
  | some (root, rest) => settings.locateVirtual host root rest
  | none => locatePlain host path

end CutsceneCatalog
