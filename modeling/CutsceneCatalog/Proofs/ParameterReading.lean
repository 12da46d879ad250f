import CutsceneCatalog.EditorStyle
import CutsceneCatalog.Parameter
import CutsceneCatalog.Proofs.FieldReading
import CutsceneCatalog.Proofs.Vocabulary

/-!
# Parameters and editor styles by their fields

A parameter and an editor style are records of fields, and each field is read on its own: the
identifier from the attribute, and all others from the first children of their names.  Which names
these are, what their texts are read as and what stands in for a text that is missing or malformed
is listed here kind by kind (`ParameterDetail.IsOf`, `EditorStyle.IsOf`).

`Element.parameter_and_style_by_fields` is the main statement.  An element with the name of a
parameter has one reading, the one listed; an editor style is read from any element whatever; and
what an element has beside the identifier and these first children is no matter.
-/

namespace CutsceneCatalog

variable {e other : Element} {kind : ParameterKind}

/-! ## Parameters -/

/-- The fields beside the heading that an element with the name of a parameter gives it. -/
inductive ParameterDetail.IsOf (e : Element) : ParameterDetail → Prop
  | bool {default : Bool} (named : e.name = "boolParameter")
      (byDefault : e.FieldIs "defaultValue" boolOfText false default) : IsOf e (.bool default)
  | int {default : Int} (named : e.name = "intParameter")
      (byDefault : e.FieldIs "defaultValue" intOfText 0 default) : IsOf e (.int default)
  | intSlider {default min max : Int} (named : e.name = "intSliderParameter")
      (byDefault : e.FieldIs "defaultValue" intOfText 0 default)
      (least : e.FieldIs "minValue" intOfText 0 min)
      (greatest : e.FieldIs "maxValue" intOfText 0 max) : IsOf e (.intSlider default min max)
  | float {default : Binary64} (named : e.name = "floatParameter")
      (byDefault : e.FieldIs "defaultValue" floatOfText (.zero false) default) :
      IsOf e (.float default)
  | floatSlider {default min max : Binary64} (named : e.name = "floatSliderParameter")
      (byDefault : e.FieldIs "defaultValue" floatOfText (.zero false) default)
      (least : e.FieldIs "minValue" floatOfText (.zero false) min)
      (greatest : e.FieldIs "maxValue" floatOfText (.zero false) max) :
      IsOf e (.floatSlider default min max)
  | line {default : String} (named : e.name = "lineParameter")
      (byDefault : e.FieldIs "defaultValue" .ok "" default) : IsOf e (.line default)
  | multiline {default : String} (named : e.name = "multilineParameter")
      (byDefault : e.FieldIs "defaultValue" .ok "" default) : IsOf e (.multiline default)
  | color {default : Color} (named : e.name = "colorParameter")
      (byDefault : e.FieldIs "defaultValue" Color.ofHtml .transparentBlack default) :
      IsOf e (.color default)
  | output {argumentAsLabel : String} (named : e.name = "outputParameter")
      (labeled : e.FieldIs "useArgumentAsLabel" .ok "" argumentAsLabel) :
      IsOf e (.output argumentAsLabel)

/-- The parameter that an element gives, field by field. -/
structure Parameter.IsOf (e : Element) (parameter : Parameter) : Prop where
  heading : parameter.heading.IsOf e
  detail : parameter.detail.IsOf e

/-- The names of the fields that a parameter of the given kind has. -/
def ParameterKind.fieldNames : ParameterKind → List String
  | .bool | .int | .float | .line | .multiline | .color =>
      ["displayName", "description", "defaultValue"]
  | .intSlider | .floatSlider =>
      ["displayName", "description", "defaultValue", "minValue", "maxValue"]
  | .output => ["displayName", "description", "useArgumentAsLabel"]

theorem Heading.eq_ofElement {heading : Heading} (h : heading.IsOf e) :
    heading = Heading.ofElement e := by
  obtain ⟨id, displayName, description⟩ := heading
  have hdisplayName := Element.fieldIs_iff.mp h.displayName
  have hdescription := Element.fieldIs_iff.mp h.description
  rw [Heading.ofElement, Element.idOr, Element.textField, Element.textField, hdisplayName,
    hdescription, ← h.id]

theorem ParameterDetail.isOf_ofElement (named : e.name = kind.tag) :
    (ParameterDetail.ofElement kind e).IsOf e := by
  have hbool := e.fieldIs_field "defaultValue" boolOfText false
  have hint (name : String) := e.fieldIs_field name intOfText 0
  have hfloat (name : String) := e.fieldIs_field name floatOfText (.zero false)
  have htext (name : String) := e.fieldIs_field name .ok ""
  have hcolor := e.fieldIs_field "defaultValue" Color.ofHtml .transparentBlack
  cases kind with
  | bool => exact .bool named hbool
  | int => exact .int named (hint _)
  | intSlider => exact .intSlider named (hint _) (hint _) (hint _)
  | float => exact .float named (hfloat _)
  | floatSlider => exact .floatSlider named (hfloat _) (hfloat _) (hfloat _)
  | line => exact .line named (htext _)
  | multiline => exact .multiline named (htext _)
  | color => exact .color named hcolor
  | output => exact .output named (htext _)

theorem ParameterDetail.IsOf.named {detail : ParameterDetail} (h : detail.IsOf e) :
    e.name = detail.kind.tag := by
  cases h <;> assumption

/-- The fields that an element gives are the ones that are read. -/
theorem ParameterDetail.IsOf.eq_ofElement {detail : ParameterDetail} (h : detail.IsOf e) :
    detail = ParameterDetail.ofElement detail.kind e := by
  cases h with
  | bool named byDefault => exact congrArg _ (Element.fieldIs_iff.mp byDefault).symm
  | int named byDefault => exact congrArg _ (Element.fieldIs_iff.mp byDefault).symm
  | intSlider named byDefault least greatest =>
    rw [← Element.fieldIs_iff.mp byDefault, ← Element.fieldIs_iff.mp least,
      ← Element.fieldIs_iff.mp greatest]
    rfl
  | float named byDefault => exact congrArg _ (Element.fieldIs_iff.mp byDefault).symm
  | floatSlider named byDefault least greatest =>
    rw [← Element.fieldIs_iff.mp byDefault, ← Element.fieldIs_iff.mp least,
      ← Element.fieldIs_iff.mp greatest]
    rfl
  | line named byDefault => exact congrArg _ (Element.fieldIs_iff.mp byDefault).symm
  | multiline named byDefault => exact congrArg _ (Element.fieldIs_iff.mp byDefault).symm
  | color named byDefault => exact congrArg _ (Element.fieldIs_iff.mp byDefault).symm
  | output named labeled => exact congrArg _ (Element.fieldIs_iff.mp labeled).symm

theorem Parameter.ofElement_of_named (named : e.name = kind.tag) :
    Parameter.ofElement e = .ok (.ofKind kind e) := by
  rw [Parameter.ofElement, (ParameterKind.ofTag?_eq_some_iff _ kind).mpr named]

/-- An element is read as the parameter that it gives, and as no other. -/
theorem Parameter.ofElement_eq_ok_iff {parameter : Parameter} :
    Parameter.ofElement e = .ok parameter ↔ parameter.IsOf e := by
  constructor
  · intro h
    unfold Parameter.ofElement at h
    split at h
    · next kind hkind =>
      obtain rfl := Except.ok.inj h
      have named := (ParameterKind.ofTag?_eq_some_iff _ kind).mp hkind
      exact ⟨Heading.isOf_ofElement e, ParameterDetail.isOf_ofElement named⟩
    · cases h
  · intro h
    obtain ⟨heading, detail⟩ := parameter
    have hheading : heading = Heading.ofElement e := Heading.eq_ofElement h.heading
    have hdetail : detail = ParameterDetail.ofElement detail.kind e := h.detail.eq_ofElement
    rw [Parameter.ofElement_of_named h.detail.named, Parameter.ofKind, ← hheading, ← hdetail]

theorem ParameterDetail.ofElement_congr (h : e.AgreeOn kind.fieldNames other) :
    ParameterDetail.ofElement kind other = ParameterDetail.ofElement kind e := by
  have hfield {α : Type} {name : String} (hname : name ∈ kind.fieldNames)
      (read : String → Except ScalarError α) (fallback : α) :
      other.field name read fallback = e.field name read fallback :=
    h.field_congr hname read fallback
  cases kind with
  | bool => exact congrArg ParameterDetail.bool (hfield (by decide) boolOfText false)
  | int => exact congrArg ParameterDetail.int (hfield (by decide) intOfText 0)
  | intSlider =>
    have hint {name : String} (hname : name ∈ ParameterKind.intSlider.fieldNames) :=
      hfield hname intOfText 0
    simp only [ofElement, Element.intField, hint (by decide : "defaultValue" ∈ _),
      hint (by decide : "minValue" ∈ _), hint (by decide : "maxValue" ∈ _)]
  | float => exact congrArg ParameterDetail.float (hfield (by decide) floatOfText (.zero false))
  | floatSlider =>
    have hfloat {name : String} (hname : name ∈ ParameterKind.floatSlider.fieldNames) :=
      hfield hname floatOfText (.zero false)
    simp only [ofElement, Element.floatField, hfloat (by decide : "defaultValue" ∈ _),
      hfloat (by decide : "minValue" ∈ _), hfloat (by decide : "maxValue" ∈ _)]
  | line => exact congrArg ParameterDetail.line (hfield (by decide) .ok "")
  | multiline => exact congrArg ParameterDetail.multiline (hfield (by decide) .ok "")
  | color =>
    exact congrArg ParameterDetail.color (hfield (by decide) Color.ofHtml .transparentBlack)
  | output => exact congrArg ParameterDetail.output (hfield (by decide) .ok "")

theorem Parameter.ofElement_congr (named : e.name = kind.tag) (hname : other.name = e.name)
    (h : e.AgreeOn kind.fieldNames other) : Parameter.ofElement other = Parameter.ofElement e := by
  have hheading : Heading.ofElement other = Heading.ofElement e :=
    Heading.ofElement_eq_of_agreeOn h (by cases kind <;> decide) (by cases kind <;> decide)
  rw [Parameter.ofElement_of_named named, Parameter.ofElement_of_named (hname.trans named),
    Parameter.ofKind, Parameter.ofKind, hheading, ParameterDetail.ofElement_congr h]

/-! ## Editor styles -/

/-- The look that an element gives to a node, field by field. -/
structure EditorStyle.IsOf (e : Element) (style : EditorStyle) : Prop where
  priority : e.FieldIs "priority" intOfText 0 style.priority
  minWidth : e.FieldIs "minWidth" intOfText 128 style.minWidth
  mainColor : e.FieldIs "mainColor" Color.ofHtml .middleGray style.mainColor
  textColor : e.FieldIs "textColor" Color.ofHtml .white style.textColor

/-- The names of the fields that an editor style has. -/
def EditorStyle.fieldNames : List String := ["priority", "minWidth", "mainColor", "textColor"]

theorem EditorStyle.ofElement_eq_iff {style : EditorStyle} :
    EditorStyle.ofElement e = style ↔ style.IsOf e := by
  constructor
  · rintro rfl
    exact ⟨e.fieldIs_field _ _ _, e.fieldIs_field _ _ _, e.fieldIs_field _ _ _,
      e.fieldIs_field _ _ _⟩
  · intro h
    obtain ⟨priority, minWidth, mainColor, textColor⟩ := style
    have hpriority : e.field "priority" intOfText 0 = priority :=
      Element.fieldIs_iff.mp h.priority
    have hminWidth : e.field "minWidth" intOfText 128 = minWidth :=
      Element.fieldIs_iff.mp h.minWidth
    have hmainColor : e.field "mainColor" Color.ofHtml .middleGray = mainColor :=
      Element.fieldIs_iff.mp h.mainColor
    have htextColor : e.field "textColor" Color.ofHtml .white = textColor :=
      Element.fieldIs_iff.mp h.textColor
    rw [← hpriority, ← hminWidth, ← hmainColor, ← htextColor]
    rfl

theorem EditorStyle.ofElement_congr (h : e.AgreeOn EditorStyle.fieldNames other) :
    EditorStyle.ofElement other = EditorStyle.ofElement e := by
  have hint {name : String} (hname : name ∈ EditorStyle.fieldNames) (fallback : Int) :=
    h.field_congr hname intOfText fallback
  have hcolor {name : String} (hname : name ∈ EditorStyle.fieldNames) (fallback : Color) :=
    h.field_congr hname Color.ofHtml fallback
  simp only [ofElement, Element.intField, Element.colorField, hint (by decide : "priority" ∈ _),
    hint (by decide : "minWidth" ∈ _), hcolor (by decide : "mainColor" ∈ _),
    hcolor (by decide : "textColor" ∈ _)]

/-! ## What decides a field -/

/-- An element with the name of a parameter is read as a parameter of that kind, and every element
as an editor style; both have the fields that the element gives them, and no element with the same
name, the same identifier and the same texts in the first children of these fields is read
differently. -/
theorem Element.parameter_and_style_by_fields (e : Element) :
    (e.name ∈ parameterNames →
      ∃ parameter, Parameter.ofElement e = .ok parameter ∧ parameter.kind.tag = e.name) ∧
    (∀ parameter, Parameter.ofElement e = .ok parameter ↔ parameter.IsOf e) ∧
    (∀ style, EditorStyle.ofElement e = style ↔ style.IsOf e) ∧
    ∀ other : Element, other.name = e.name →
      (∀ kind : ParameterKind, e.name = kind.tag → e.AgreeOn kind.fieldNames other →
        Parameter.ofElement other = Parameter.ofElement e) ∧
      (e.AgreeOn EditorStyle.fieldNames other →
        EditorStyle.ofElement other = EditorStyle.ofElement e) := by
  refine ⟨?_, fun _ => Parameter.ofElement_eq_ok_iff, fun _ => EditorStyle.ofElement_eq_iff, ?_⟩
  · intro hmem
    obtain ⟨kind, named⟩ := (mem_parameterNames_iff e.name).mp hmem
    have hkind : (Parameter.ofKind kind e).kind = kind := by
      cases kind <;> rfl
    exact ⟨.ofKind kind e, Parameter.ofElement_of_named named, by rw [hkind, named]⟩
  · intro other hname
    exact ⟨fun kind named h => Parameter.ofElement_congr named hname h,
      EditorStyle.ofElement_congr⟩

/-- A later child of a field's name is not asked, even where the first one is malformed. -/
example :
    (EditorStyle.ofElement ⟨"editorNodeInfo", "", [],
      [⟨"minWidth", "wide", [], []⟩, ⟨"minWidth", "7", [], []⟩]⟩).minWidth = 128 := by
  decide

end CutsceneCatalog
