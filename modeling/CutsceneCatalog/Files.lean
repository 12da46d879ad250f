import CutsceneCatalog.Location
import CutsceneCatalog.Text.Quoted
import CutsceneCatalog.Text.Utf8

/-!
# Files

A snapshot of the files that definitions, icons and settings are read from: a list of entries under
absolute names, parent folders included.  There are no links.  `Files.lookUp` follows a location
name by name, as opening a file does, so that a pair of points after a name needs a folder of that
name.
-/

namespace CutsceneCatalog

/-- What is in a file.  An image is known by its size, and by whether it can be decoded. -/
inductive Content
  | bytes (bs : List UInt8)
  | image (width height : Nat) (decodes : Bool)
deriving DecidableEq, Repr

/-- What a name stands for. -/
inductive FileEntry
  | folder
  | file (content : Content)
deriving Repr

/-- Why a file cannot be opened. -/
inductive FileFault
  | missing
  | notAFolder
  | isAFolder
  | nameTooLong
deriving DecidableEq, Repr

/-- The number and the wording of a fault. -/
def FileFault.text : FileFault → String
  | .missing => "[Errno 2] No such file or directory"
  | .notAFolder => "[Errno 20] Not a directory"
  | .isAFolder => "[Errno 21] Is a directory"
  | .nameTooLong => "[Errno 36] File name too long"

/-- The wording of a fault at a location. -/
def FileFault.message (fault : FileFault) (path : String) : String :=
  fault.text ++ ": " ++ Text.quote path

/-- A snapshot of all files and folders, by their names from the root. -/
structure Files where
  entries : List (List Part × FileEntry)
deriving Repr

namespace Files

/-- The greatest number of bytes of one name. -/
def nameLimit : Nat := 255

/-- The number of bytes that no address reaches. -/
def addressLimit : Nat := 4096

/-- What stands under a name; the root is a folder. -/
def entry? (files : Files) (names : List Part) : Option FileEntry :=
  if names = [] then some .folder else files.entries.lookup names

/-- Puts an entry under a name, in place of what was there. -/
def put (files : Files) (names : List Part) (entry : FileEntry) : Files :=
  ⟨files.entries.filter (fun (key, _) => key != names) ++ [(names, entry)]⟩

/-- Makes a folder and the folders it is in, where there are none. -/
def addFolder (files : Files) (names : List Part) : Files :=
  (List.range names.length).foldl (fun files n =>
    let above := names.take (n + 1)
    if (files.entry? above).isSome then files else files.put above .folder) files

/-- Writes a file, and makes the folders it is in. -/
def write (files : Files) (names : List Part) (content : Content) : Files :=
  (files.addFolder names.dropLast).put names (.file content)

/-- Removes a file, or a folder with everything in it. -/
def delete (files : Files) (names : List Part) : Files :=
  ⟨files.entries.filter fun (key, _) => !names.isPrefixOf key⟩

/-- The names in a folder, in the order in which they were made. -/
def children (files : Files) (folder : List Part) : List Part :=
  files.entries.filterMap fun (key, _) =>
    match key.getLast? with
    | some last => if key.dropLast = folder then some last else none
    | none => none

/-- Follows names from a folder. -/
def walk (files : Files) : (folder : List Part) → List Part → Except FileFault FileEntry
  | _, [] => .ok .folder
  | folder, part :: rest =>
      if part = .up then files.walk folder.dropLast rest
      else if nameLimit < Text.utf8Length part.text then .error .nameTooLong
      else match files.entry? (folder ++ [part]), rest with
        | none, _ => .error .missing
        | some .folder, rest => files.walk (folder ++ [part]) rest
        | some (.file content), [] => .ok (.file content)
        | some (.file _), _ :: _ => .error .notAFolder

/-- What stands at a location, which is taken from the current folder. -/
def lookUp (files : Files) (current : List Part) (l : Location) : Except FileFault FileEntry :=
  if addressLimit ≤ Text.utf8Length l.text then .error .nameTooLong
  else files.walk [] (l.absolute current).parts

/-- What is in the file at a location. -/
def read (files : Files) (current : List Part) (l : Location) : Except FileFault Content :=
  match files.lookUp current l with
  | .ok (.file content) => .ok content
  | .ok .folder => .error .isAFolder
  | .error fault => .error fault

end Files

end CutsceneCatalog
