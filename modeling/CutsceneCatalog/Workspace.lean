import CutsceneCatalog.Import
import CutsceneCatalog.Settings.Session

/-!
# Workspaces

Paths, icons and definitions for a caller who may bring settings or leave them to the session.
Settings are only looked for where they are needed: a plain path needs none.
-/

namespace CutsceneCatalog

/-- The files, the host and the session that a caller works with. -/
structure Workspace where
  files : Files
  host : Host
  session : Session

namespace Workspace

/-- The settings given, or those of the session. -/
def settings (workspace : Workspace) (given : Option Settings) :
    Except SettingsError Settings × Workspace :=
  match given with
  | some settings => (.ok settings, workspace)
  | none =>
      let (result, session) := workspace.session.settings workspace.host workspace.files none
      (result.map Prod.snd, { workspace with session := session })

/-- The absolute location that a path stands for. -/
def locate (workspace : Workspace) (given : Option Settings) (path : String) :
    Except SettingsError Location × Workspace :=
  if isVirtual path then
    let (result, workspace) := workspace.settings given
    (result.map fun settings => settings.locate workspace.host path, workspace)
  else (.ok (locatePlain workspace.host path), workspace)

/-- The icon that a text refers to from a folder. -/
def icon (workspace : Workspace) (given : Option Settings) (folder : Location) (text : String) :
    Except SettingsError (Option Icon) × Workspace :=
  match IconReference.ofText text with
  | .blank => (.ok none, workspace)
  | .plain path => (.ok (Icon.fromFolder? workspace.files workspace.host folder path), workspace)
  | .virtual path root rest =>
      let (result, workspace) := workspace.settings given
      let load (settings : Settings) : Option Icon :=
        Icon.open? workspace.files workspace.host path
          (settings.locateVirtual workspace.host root rest)
      (result.map load, workspace)

/-- What imports definitions with the settings given, or those of the session. -/
def importer (workspace : Workspace) (given : Option Settings) : Except SettingsError Importer :=
  (workspace.settings given).1.map fun settings => ⟨workspace.files, workspace.host, settings⟩

end Workspace

end CutsceneCatalog
