import CutsceneCatalog.Element.Field

/-!
# Headings

The identifier and the two texts for people that every parameter and every compile rule has.
-/

namespace CutsceneCatalog

/-- The fields shared by parameters and compile rules. -/
structure Heading where
  id : String
  displayName : String
  description : String
deriving DecidableEq, Repr

/-- Reads a heading; each of its fields is empty by default. -/
def Heading.ofElement (e : Element) : Heading where
  id := e.idOr ""
  displayName := e.textField "displayName" ""
  description := e.textField "description" ""

end CutsceneCatalog
