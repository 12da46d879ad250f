import CutsceneCatalog.Files
import CutsceneCatalog.Settings
import CutsceneCatalog.Text.Blank

/-!
# Icons

Finding the image that a definition refers to.  A reference is trimmed and is either a virtual path
or a path from the folder of the definition.  An image that is missing or cannot be decoded is no
error: there is no icon then.
-/

namespace CutsceneCatalog

/-- An image that was found. -/
structure Icon where
  /-- The virtual path it was referred to by, or its path. -/
  resourcePath : String
  width : Nat
  height : Nat
deriving DecidableEq, Repr

/-- The image in a file, under the name it is known by. -/
def Icon.open? (files : Files) (host : Host) (resourcePath : String) (target : Location) :
    Option Icon :=
  match files.read host.current target with
  | .ok (.image width height true) => some ⟨resourcePath, width, height⟩
  | _ => none

/-- What the text of a reference points to. -/
inductive IconReference
  | blank
  | virtual (path : String) (root : VirtualRoot) (rest : String)
  | plain (path : String)
deriving DecidableEq, Repr

/-- Reads the text of a reference. -/
def IconReference.ofText (text : String) : IconReference :=
  let path := Text.trim text
  if path = "" then .blank
  else match VirtualRoot.split? path with
    | some (root, rest) => .virtual path root rest
    | none => .plain path

/-- The image that a plain path from a folder leads to. -/
def Icon.fromFolder? (files : Files) (host : Host) (folder : Location) (path : String) :
    Option Icon :=
  let target := folder.under (.ofString path)
  Icon.open? files host target.text target

/-- The image that a text refers to from a folder, if there is one. -/
def Icon.load? (files : Files) (host : Host) (settings : Settings) (folder : Location)
    (text : String) : Option Icon :=
  match IconReference.ofText text with
  | .blank => none
  | .virtual path root rest => Icon.open? files host path (settings.locateVirtual host root rest)
  | .plain path => Icon.fromFolder? files host folder path

end CutsceneCatalog
