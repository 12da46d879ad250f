import CutsceneCatalog.Settings.Reading
import CutsceneCatalog.Text.Lines

/-!
# Settings sessions

Finding the settings of a named environment.  The environment's own file of assignments is laid over
the environment variables first, or another one if it is missing; then each field is set by its
variable, else by the environment's section of the settings file, else by its standard.  What the
assignments change stays changed, even if the settings turn out to be faulty.

A session keeps the settings that were found first until it is reset; settings that were not found
leave nothing behind but the changed variables.
-/

namespace CutsceneCatalog

/-- Why no settings were found. -/
inductive SettingsError
  | unknownEnvironment (name : String)
  | unreadable (path : String) (fault : FileFault)
  /-- A file of assignments is no text. -/
  | undecodable (fault : Text.Utf8Fault)
  /-- An assignment cannot be made. -/
  | unassignable (fault : Variables.Fault)
  /-- The settings file has no value. -/
  | valueless (fault : Value.Fault)
  /-- Something else stands where sections or fields are expected. -/
  | sectionless (kind : String)
  | invalid (faults : SettingFaults)
deriving DecidableEq, Repr

/-- The wording of an error; a malformed file and invalid values have none. -/
def SettingsError.message : SettingsError → String
  | .unknownEnvironment name => "Invalid environment: " ++ name
  | .unreadable path fault => fault.message path
  | .undecodable fault => fault.message
  | .unassignable fault => fault.message
  | .valueless (.undecodable fault) => fault.message
  | .valueless (.failed _ message) => message
  | .sectionless kind => "'" ++ kind ++ "' object has no attribute 'get'"
  | .valueless .malformed | .invalid _ => ""

/-- The names of the environments. -/
def environments : List String := ["prd", "acc", "dev", "local"]

/-- The entries of a mapping; a void value counts as an empty one. -/
def Value.sections (v : Value) : Except SettingsError (List (Value × Value)) :=
  if v.isVoid then .ok []
  else match v with
    | .map entries => .ok entries
    | v => .error (.sectionless v.kindName)

/-- What keeps an image from being read as text: its first byte begins no character. -/
def imageFault : Text.Utf8Fault := ⟨0, 0x89, 1, .start⟩

/-- What is in a file, as a text of assignments. -/
def Content.assignments : Content → Except SettingsError (List Char)
  | .bytes bs =>
      match Text.utf8 bs with
      | .ok cs => .ok (Text.unifyBreaks cs)
      | .error fault => .error (.undecodable fault)
  | .image .. => .error (.undecodable imageFault)

/-- The text of assignments of an environment with its own file at `path`: of that file, or of the
fallback if nothing stands there.  A folder has no text. -/
def assignmentsText (files : Files) (host : Host) (path : Location) :
    Except SettingsError (Option (List Char)) :=
  match files.read host.current path with
  | .ok content => content.assignments.map some
  | .error .isAFolder => .ok none
  | .error .nameTooLong => .error (.unreadable path.text .nameTooLong)
  | .error .missing | .error .notAFolder =>
      match (host.libraries.fallback files).map (files.read host.current) with
      | some (.ok content) => content.assignments.map some
      | some (.error _) | none => .ok none

/-- The sections of a settings file, which may be absent. -/
def settingsSections (files : Files) (host : Host) (path : Location) :
    Except SettingsError (List (Value × Value)) :=
  match files.read host.current path with
  | .ok (.bytes bs) =>
      match host.libraries.valueOf bs with
      | .ok value => value.sections
      | .error fault => .error (.valueless fault)
  | .ok (.image ..) => .error (.valueless (.undecodable imageFault))
  | .error .missing | .error .notAFolder => .ok []
  | .error fault => .error (.unreadable path.text fault)

/-- The fields of one section, which may be absent. -/
def sectionFields (sections : List (Value × Value)) (name : String) :
    Except SettingsError (List (Value × Value)) :=
  ((Value.entry? sections name).getD .null).sections

/-- The value of a field: its variable's, else the section's unless that is null. -/
def chosenValue (vars : Variables) (fields : List (Value × Value)) (field : SettingField) :
    Option Value :=
  match vars.get? field.variableName with
  | some text => some (.text text)
  | none =>
      match Value.entry? fields field.name with
      | some .null | none => none
      | some value => some value

/-- The settings of an environment whose assignments have been made. -/
def chosenSettings (host : Host) (files : Files) (vars : Variables) (path : Location)
    (environment : String) : Except SettingsError Settings := do
  let sections ← settingsSections files host path
  let fields ← sectionFields sections environment
  match Settings.ofValues host (chosenValue vars fields) with
  | .ok settings => return settings
  | .error faults => throw (.invalid faults)

/-- Where settings are looked for. -/
structure SettingsPlace where
  /-- The settings file. -/
  file : Location
  /-- The folder of the files of assignments. -/
  folder : Location
deriving Repr

/-- The places that are used where none is named. -/
def SettingsPlace.standard (host : Host) : SettingsPlace where
  file := host.installation.under (.ofString "project_config.yml")
  folder := .ofString "config"

/-- The file of assignments of an environment. -/
def SettingsPlace.assignments (place : SettingsPlace) (environment : String) : Location :=
  place.folder.under (.ofString (".env." ++ environment))

/-- Finds the settings of an environment, and returns them with the changed variables. -/
def Settings.find (host : Host) (files : Files) (place : SettingsPlace) (environment : String)
    (vars : Variables) : Except SettingsError Settings × Variables :=
  if environments.contains environment then
    match assignmentsText files host (place.assignments environment) with
    | .error e => (.error e, vars)
    | .ok none => (chosenSettings host files vars place.file environment, vars)
    | .ok (some cs) =>
        match vars.assignAll (host.libraries.assignments vars cs) with
        | (.ok (), vars) => (chosenSettings host files vars place.file environment, vars)
        | (.error fault, vars) => (.error (.unassignable fault), vars)
  else (.error (.unknownEnvironment environment), vars)

/-! ## Sessions -/

/-- The state that finding settings leaves behind. -/
structure Session where
  vars : Variables
  /-- The settings in use, with the number of settings found before them. -/
  cached : Option (Nat × Settings)
  /-- The number of settings found so far. -/
  found : Nat
deriving Repr

namespace Session

/-- A session that has found nothing yet. -/
def start (vars : Variables) : Session := ⟨vars, none, 0⟩

/-- The environment that is asked for: the one named, else the one of the variable, else `local`. -/
def environment (session : Session) (named : Option String) : String :=
  match named with
  | some name => if name = "" then fallback else name
  | none => fallback
where
  /-- The environment where none is named. -/
  fallback : String := (session.vars.get? "ENVIRONMENT").getD "local"

/-- The settings in use, which are found now if there are none. -/
def settings (host : Host) (files : Files) (named : Option String) (session : Session) :
    Except SettingsError (Nat × Settings) × Session :=
  match session.cached with
  | some numbered => (.ok numbered, session)
  | none =>
      match Settings.find host files (.standard host) (session.environment named) session.vars with
      | (.ok settings, vars) =>
          let numbered := (session.found, settings)
          (.ok numbered, ⟨vars, some numbered, session.found + 1⟩)
      | (.error e, vars) => (.error e, { session with vars := vars })

/-- Forgets the settings in use. -/
def reset (session : Session) : Session := { session with cached := none }

/-- Sets an environment variable. -/
def setVariable (session : Session) (name value : String) : Session :=
  { session with vars := session.vars.set name value }

end Session

end CutsceneCatalog
