import CutsceneCatalog.Color
import CutsceneCatalog.Element

/-!
# Fields

A field of an element is a child that holds one value as its text.  Fields are optional, and reading
one never fails: the first child of the field's name decides, and where it is missing or its text is
not in the field's grammar, the field has its default.
-/

namespace CutsceneCatalog

namespace Element

variable {α : Type}

/-- The value of a field: what the first child of its name reads as, or else the default. -/
def field (e : Element) (tag : String) (read : String → Except ScalarError α) (fallback : α) : α :=
  match e.find? tag with
  | none => fallback
  | some child =>
      match read child.innerText with
      | .ok value => value
      | .error _ => fallback

/-- A truth value. -/
def boolField (e : Element) (tag : String) (fallback : Bool) : Bool :=
  e.field tag boolOfText fallback

/-- A whole number of 32 signed bits. -/
def intField (e : Element) (tag : String) (fallback : Int) : Int := e.field tag intOfText fallback

/-- A decimal number. -/
def floatField (e : Element) (tag : String) (fallback : Binary64) : Binary64 :=
  e.field tag floatOfText fallback

/-- A text, which is never trimmed. -/
def textField (e : Element) (tag : String) (fallback : String) : String := e.field tag .ok fallback

/-- A color. -/
def colorField (e : Element) (tag : String) (fallback : Color) : Color :=
  e.field tag Color.ofHtml fallback

/-- The attribute that identifies an element among its like. -/
def idOr (e : Element) (fallback : String) : String := (e.attribute? "id").getD fallback

end Element

end CutsceneCatalog
