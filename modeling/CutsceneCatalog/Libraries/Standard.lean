import CutsceneCatalog.Markup.Codecs
import CutsceneCatalog.Settings
import CutsceneCatalog.Settings.Conversion
import CutsceneCatalog.Settings.EnvFile
import CutsceneCatalog.Yaml.Block

/-!
# The libraries at hand

Libraries that run: a registry of single-byte codecs, YAML without anchors, tags, merged keys and
block scalars for settings files, assignments with references to variables, and conversions of plain
values.
-/

namespace CutsceneCatalog

/-- The value of a settings file in YAML.  A character that the end of the file cuts short is looked
at by itself, so its place is the first one. -/
def Yaml.valueOf (bs : List UInt8) : Except Value.Fault Value :=
  match Text.utf8 bs with
  | .ok cs =>
      match document? cs with
      | some value => .ok value
      | none => .error .malformed
  | .error fault =>
      .error (.undecodable (if fault.flaw = .cutShort then { fault with position := 0 } else fault))

/-- The file named `.env` in a folder, or in the nearest folder above it that has one. -/
def EnvFile.nearest? (folder : Location) (files : Files) : Option Location :=
  let place (depth : Nat) : Location :=
    Location.under { folder with parts := folder.parts.take depth } (.ofString ".env")
  ((List.range (folder.parts.length + 1)).reverse.map place).find? fun place =>
    (files.read [] place).toBool

/-- The libraries of a program that is installed in a folder. -/
def Libraries.standard (installation : Location) : Libraries where
  codecs := .standard
  valueOf := Yaml.valueOf
  assignments := EnvFile.read
  fallback := EnvFile.nearest? installation
  toPath := Value.folder
  toText := Value.textOnly
  toWhole := Value.whole

/-- A process with these libraries and with all its folders at the root. -/
def Host.atRoot : Host := ⟨[], ⟨.root, []⟩, ⟨.root, []⟩, .standard ⟨.root, []⟩⟩

end CutsceneCatalog
