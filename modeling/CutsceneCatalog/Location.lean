import CutsceneCatalog.Text.Split

/-!
# Locations

The address of a file as its parts: where it starts (`Anchor`) and the names to follow (`Part`).
Reading an address drops empty parts, parts that are a single point, and slashes at the end; two
points stay until the location is made normal.  A text that starts with exactly two slashes keeps
both, three or more count as one.

`Location.collapse` goes back one name at each pair of points and never climbs above the start.
-/

namespace CutsceneCatalog

/-- Whether a text leads somewhere as a part of an address: it is not empty, not a single point,
and has no slash in it. -/
def isPart (s : String) : Bool := s != "" && s != "." && !s.toList.contains '/'

/-- A part of an address. -/
structure Part where
  text : String
  proper : isPart text = true
deriving DecidableEq, Repr

namespace Part

/-- The part that a text is, if it leads somewhere. -/
def ofString? (s : String) : Option Part :=
  if h : isPart s = true then some ⟨s, h⟩ else none

/-- The way back: the pair of points. -/
def up : Part := ⟨"..", by simp [isPart]⟩

end Part

/-- Where a location starts. -/
inductive Anchor
  | relative
  | root
  | doubleRoot
deriving DecidableEq, Repr

/-- What a location of this anchor is written with in front. -/
def Anchor.text : Anchor → String
  | .relative => ""
  | .root => "/"
  | .doubleRoot => "//"

/-- The anchor of a text. -/
def Anchor.ofChars : List Char → Anchor
  | '/' :: '/' :: '/' :: _ => .root
  | '/' :: '/' :: _ => .doubleRoot
  | '/' :: _ => .root
  | _ => .relative

/-- The address of a file or folder. -/
structure Location where
  anchor : Anchor
  parts : List Part
deriving DecidableEq, Repr

namespace Location

/-- The parts of a text between slashes. -/
def partsOf (cs : List Char) : List Part :=
  (Text.pieces '/' cs).filterMap fun piece => Part.ofString? (String.ofList piece)

/-- The location that a text addresses. -/
def ofString (s : String) : Location := ⟨.ofChars s.toList, partsOf s.toList⟩

/-- The text of a location; a location without anything is the current folder. -/
def text (l : Location) : String :=
  if l.anchor = .relative ∧ l.parts = [] then "."
  else
    l.anchor.text ++ String.ofList (Text.join '/' (l.parts.map fun part => part.text.toList))

/-- A location that does not depend on a current folder. -/
def isAbsolute (l : Location) : Bool := l.anchor != .relative

/-- The location reached from `base`; an absolute one replaces it. -/
def under (base l : Location) : Location :=
  if l.isAbsolute then l else ⟨base.anchor, base.parts ++ l.parts⟩

/-- The location of something in a folder. -/
def inside (folder : Location) (part : Part) : Location :=
  { folder with parts := folder.parts ++ [part] }

/-- The folder that holds a location. -/
def parent (l : Location) : Location := { l with parts := l.parts.dropLast }

/-- One step along the parts, from the names passed so far, last name first. -/
def follow (passed : List Part) (part : Part) : List Part :=
  if part = .up then passed.tail else part :: passed

/-- The names that are left when each pair of points has taken back the name before it. -/
def collapse (parts : List Part) : List Part :=
  (parts.foldl follow []).reverse

/-- The absolute location that a location stands for in the folder with the given names from the
root. -/
def absolute (l : Location) (current : List Part) : Location := (Location.mk .root current).under l

/-- The absolute location without pairs of points. -/
def normal (l : Location) (current : List Part) : Location :=
  let l := l.absolute current
  { l with parts := collapse l.parts }

end Location

end CutsceneCatalog
