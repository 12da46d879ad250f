import CutsceneCatalog.Heading
import CutsceneCatalog.Vocabulary

/-!
# Parameters

A parameter of an instruction.  Its kind, which its element name gives, fixes what fields it has
beside its heading.
-/

namespace CutsceneCatalog

/-- The fields of a parameter that depend on its kind. -/
inductive ParameterDetail
  | bool (default : Bool)
  | int (default : Int)
  | intSlider (default min max : Int)
  | float (default : Binary64)
  | floatSlider (default min max : Binary64)
  | line (default : String)
  | multiline (default : String)
  | color (default : Color)
  /-- A further output of the instruction, whose label may be taken from another argument. -/
  | output (argumentAsLabel : String)
deriving DecidableEq, Repr

/-- The kind that has the given fields. -/
def ParameterDetail.kind : ParameterDetail → ParameterKind
  | .bool .. => .bool
  | .int .. => .int
  | .intSlider .. => .intSlider
  | .float .. => .float
  | .floatSlider .. => .floatSlider
  | .line .. => .line
  | .multiline .. => .multiline
  | .color .. => .color
  | .output .. => .output

/-- A parameter of an instruction. -/
structure Parameter where
  heading : Heading
  detail : ParameterDetail
deriving DecidableEq, Repr

/-- An element that was read as a parameter is none. -/
inductive ParameterError
  | notAParameter (tag : String)
deriving DecidableEq, Repr

/-- The wording of a parameter error. -/
def ParameterError.message : ParameterError → String
  | .notAParameter tag => "'" ++ tag ++ "' is not a parameter element"

/-- The kind of a parameter. -/
def Parameter.kind (p : Parameter) : ParameterKind := p.detail.kind

/-- Reads the fields that a kind of parameter has. -/
def ParameterDetail.ofElement (kind : ParameterKind) (e : Element) : ParameterDetail :=
  let int (tag : String) := e.intField tag 0
  let float (tag : String) := e.floatField tag (.zero false)
  match kind with
  | .bool => .bool (e.boolField "defaultValue" false)
  | .int => .int (int "defaultValue")
  | .intSlider => .intSlider (int "defaultValue") (int "minValue") (int "maxValue")
  | .float => .float (float "defaultValue")
  | .floatSlider => .floatSlider (float "defaultValue") (float "minValue") (float "maxValue")
  | .line => .line (e.textField "defaultValue" "")
  | .multiline => .multiline (e.textField "defaultValue" "")
  | .color => .color (e.colorField "defaultValue" .transparentBlack)
  | .output => .output (e.textField "useArgumentAsLabel" "")

/-- Reads a parameter of a known kind. -/
def Parameter.ofKind (kind : ParameterKind) (e : Element) : Parameter :=
  ⟨.ofElement e, .ofElement kind e⟩

/-- Reads a parameter of the kind that the element's name stands for. -/
def Parameter.ofElement (e : Element) : Except ParameterError Parameter :=
  match ParameterKind.ofTag? e.name with
  | some kind => .ok (.ofKind kind e)
  | none => .error (.notAParameter e.name)

end CutsceneCatalog
