import CutsceneCatalog.Proofs.DoubleOrder
import CutsceneCatalog.Proofs.EntryReading
import CutsceneCatalog.Proofs.Outcome
import CutsceneCatalog.Proofs.RuleRendering

/-!
# The numbers in a definition

A text may write a number of any size, but a definition only holds numbers in range: whole numbers
of 32 signed bits, doubles that are numbers, and color channels from 0 to 1
(`Definition.InRange`).  `Definition.inRange_of_read_eq_ok` says so of every definition that is
read, whatever its document.

A field either reads its text or keeps its default, so a range holds of a field as soon as it holds
of what its reader accepts and of the default (`Element.field_of`).  Above the fields, parameters
and styles are read from one element each.  Rules are read from elements inside elements, and what
is asked of one level is carried to all of them by `Rule.everywhere_of_ofElement_eq_ok`.
-/

namespace CutsceneCatalog

open Text

/-! ## Numbers in range -/

/-- A whole number of 32 signed bits. -/
def IsInt32 (n : Int) : Prop := int32Min ≤ n ∧ n ≤ int32Max

instance (n : Int) : Decidable (IsInt32 n) := inferInstanceAs (Decidable (_ ∧ _))

/-- All channels of a color are from 0 to 1, as the rational numbers that they are. -/
def Color.InRange (color : Color) : Prop :=
  ∀ c ∈ [color.r, color.g, color.b, color.a],
    c.value.isFinite = true ∧ 0 ≤ c.value.toRat ∧ c.value.toRat ≤ 1

/-- The numbers of a parameter are in range. -/
def ParameterDetail.InRange : ParameterDetail → Prop
  | .int default => IsInt32 default
  | .intSlider default min max => IsInt32 default ∧ IsInt32 min ∧ IsInt32 max
  | .float default => default.isNaN = false
  | .floatSlider default min max =>
      default.isNaN = false ∧ min.isNaN = false ∧ max.isNaN = false
  | .color default => default.InRange
  | .bool _ | .line _ | .multiline _ | .output _ => True

/-- The numbers of a style are in range. -/
structure EditorStyle.InRange (style : EditorStyle) : Prop where
  priority : IsInt32 style.priority
  minWidth : IsInt32 style.minWidth
  mainColor : style.mainColor.InRange
  textColor : style.textColor.InRange

/-- All numbers of a definition are in range, those of its nested rules included. -/
structure Definition.InRange (definition : Definition) : Prop where
  parameters : ∀ parameter ∈ definition.parameters, parameter.detail.InRange
  editorStyle : definition.editorStyle.InRange
  rules : ∀ rule ∈ definition.rules, rule.Everywhere Rule.SelectionInRange

/-! ## Numbers that are read -/

theorem isInt32_of_intOfText {text : String} {n : Int} (h : intOfText text = .ok n) :
    IsInt32 n := by
  unfold intOfText at h
  split at h
  · cases h
  · next minus digits _ =>
    dsimp only at h
    split at h
    · cases h
    · split at h
      · next hrange =>
        obtain rfl := Except.ok.inj h
        exact hrange
      · cases h

/-- However great or small a decimal number is, it is rounded to a number. -/
theorem DecimalLiteral.isNaN_toBinary64 (literal : DecimalLiteral) :
    literal.toBinary64.isNaN = false := by
  have hzero : (Binary64.zero literal.negative).isNaN = false := rfl
  have hinfinity : (Binary64.infinity literal.negative).isNaN = false := rfl
  unfold toBinary64
  split
  · exact hzero
  · split
    · exact hinfinity
    · split
      · exact hzero
      · split <;> exact Binary64.isNaN_nearest _ _ _

theorem isNaN_of_floatOfText {text : String} {x : Binary64} (h : floatOfText text = .ok x) :
    x.isNaN = false := by
  unfold floatOfText at h
  split at h
  · cases h
  · next literal _ =>
    obtain rfl := Except.ok.inj h
    exact literal.isNaN_toBinary64

theorem Channel.isFinite_value (c : Channel) : c.value.isFinite = true :=
  Binary64.isFinite_of_le_one c.nonneg c.le_one

theorem Color.inRange (color : Color) : color.InRange := by
  have hzero : (Binary64.zero false).isFinite = true := rfl
  have hone : Binary64.one.isFinite = true := by decide
  intro c _
  have hfinite := c.isFinite_value
  have hlow := (Binary64.le_eq_true_iff hzero hfinite).mp c.nonneg
  have hhigh := (Binary64.le_eq_true_iff hfinite hone).mp c.le_one
  rw [Binary64.toRat_zero] at hlow
  rw [Binary64.toRat_one] at hhigh
  exact ⟨hfinite, hlow, hhigh⟩

namespace Element

/-- What holds of the default of a field and of all that its text may be read as, holds of the
field. -/
theorem field_of {α : Type} {p : α → Prop} {read : String → Except ScalarError α} {fallback : α}
    (hread : ∀ text value, read text = .ok value → p value) (hfallback : p fallback)
    (e : Element) (tag : String) : p (e.field tag read fallback) := by
  unfold field
  split
  · exact hfallback
  · next child _ =>
    split
    · next value hvalue => exact hread _ value hvalue
    · exact hfallback

theorem isInt32_intField (e : Element) (tag : String) {fallback : Int} (h : IsInt32 fallback) :
    IsInt32 (e.intField tag fallback) :=
  field_of (fun _ _ hread => isInt32_of_intOfText hread) h e tag

theorem isNaN_floatField (e : Element) (tag : String) {fallback : Binary64}
    (h : fallback.isNaN = false) : (e.floatField tag fallback).isNaN = false :=
  field_of (p := fun x => x.isNaN = false) (fun _ _ hread => isNaN_of_floatOfText hread) h e tag

end Element

/-! ## Parameters and styles -/

theorem ParameterDetail.inRange_ofElement (kind : ParameterKind) (e : Element) :
    (ParameterDetail.ofElement kind e).InRange := by
  have hint (tag : String) : IsInt32 (e.intField tag 0) := e.isInt32_intField tag (by decide)
  have hfloat (tag : String) : (e.floatField tag (.zero false)).isNaN = false :=
    e.isNaN_floatField tag rfl
  cases kind with
  | int => exact hint "defaultValue"
  | intSlider => exact ⟨hint "defaultValue", hint "minValue", hint "maxValue"⟩
  | float => exact hfloat "defaultValue"
  | floatSlider => exact ⟨hfloat "defaultValue", hfloat "minValue", hfloat "maxValue"⟩
  | color => exact Color.inRange _
  | bool | line | multiline | output => trivial

theorem Parameter.inRange_of_ofElement {e : Element} {parameter : Parameter}
    (h : Parameter.ofElement e = .ok parameter) : parameter.detail.InRange := by
  unfold ofElement at h
  split at h
  · next kind _ =>
    obtain rfl := Except.ok.inj h
    exact ParameterDetail.inRange_ofElement kind e
  · cases h

theorem EditorStyle.inRange_standard : EditorStyle.standard.InRange :=
  ⟨by decide, by decide, Color.inRange _, Color.inRange _⟩

theorem EditorStyle.inRange_ofElement (e : Element) : (EditorStyle.ofElement e).InRange :=
  ⟨e.isInt32_intField "priority" inRange_standard.priority,
    e.isInt32_intField "minWidth" inRange_standard.minWidth, Color.inRange _, Color.inRange _⟩

/-! ## Rules -/

namespace Rule

variable {maxDepth depth : Int} {file : Option String} {e : Element} {rule : Rule}

/-- What holds of all rules as they are put together, holds at every level of a rule that is
read. -/
theorem everywhere_of_ofElement_eq_ok {p : Rule → Prop}
    (hp : ∀ kind e found, p (compose kind e found))
    (h : ofElement maxDepth file depth e = .ok (some rule)) : rule.Everywhere p := by
  induction e using Element.induct generalizing rule depth with
  | step e ih =>
    obtain ⟨kind, -, -, hread⟩ := ofElement_eq_some_iff.mp h
    obtain ⟨found, hself, hnested⟩ := exists_compose_of_ofKind_eq_ok hread
    rw [everywhere_iff]
    refine ⟨?_, ?_⟩
    · rw [hself]
      exact hp kind e found
    · intro below hbelow
      obtain ⟨child, hmem, hchild⟩ := hnested below hbelow
      exact ih child hmem hchild

theorem selectionInRange_compose (kind : RuleKind) (e : Element) (found : List Rule) :
    (compose kind e found).SelectionInRange := by
  cases kind with
  | choice => exact e.isInt32_intField "startSelected" (by decide)
  | option | tuple | list | preInstruction => trivial

end Rule

/-! ## Definitions -/

namespace Definition

variable {around : Surroundings} {file : Option String} {definition : Definition}

/-- What the children of a root say is in range, whatever they are. -/
theorem ReadFrom.inRange {children : List Element} (h : definition.ReadFrom around file children) :
    definition.InRange := by
  refine ⟨?_, ?_, ?_⟩
  · intro parameter hparameter
    have hmem := List.mem_map_of_mem (f := Except.ok (ε := ParameterError)) hparameter
    rw [h.parameters] at hmem
    obtain ⟨child, -, hchild⟩ := List.mem_map.mp hmem
    exact Parameter.inRange_of_ofElement hchild
  · rw [h.editorStyle]
    cases lastNamed "editorNodeInfo" children with
    | none => exact EditorStyle.inRange_standard
    | some e => exact EditorStyle.inRange_ofElement e
  · intro rule hrule
    have hmem :=
      List.mem_map_of_mem (f := fun rule => Except.ok (ε := ImportError) (some rule)) hrule
    rw [h.rules] at hmem
    obtain ⟨child, -, hchild⟩ := List.mem_map.mp hmem
    exact Rule.everywhere_of_ofElement_eq_ok Rule.selectionInRange_compose hchild

/-- Every number of a definition that is read is in range: at every place where a number may stand,
at every depth of its rules, and whatever digits the document has there. -/
theorem inRange_of_read_eq_ok {root : Element}
    (h : Definition.read around file root = .ok definition) : definition.InRange :=
  (ReadFrom.foldlM h ReadFrom.empty).inRange

/-- A document whose numbers are all too great, or not numbers at all, at two depths of its
rules. -/
def overflowingRoot : Element :=
  let leaf (name text : String) : Element := ⟨name, text, [], []⟩
  let selected (text : String) (below : List Element) : Element :=
    ⟨"choiceRule", "", [], leaf "startSelected" text :: below⟩
  ⟨"definition", "", [],
    [⟨"intSliderParameter", "", [], [leaf "defaultValue" "2147483648",
        leaf "minValue" "-2147483648", leaf "maxValue" "2147483647"]⟩,
      ⟨"floatParameter", "", [], [leaf "defaultValue" "-1e999"]⟩,
      ⟨"editorNodeInfo", "", [], [leaf "priority" "99999999999999999999",
        leaf "mainColor" "#f80"]⟩,
      selected "4294967296" [selected "-2147483649" []]]⟩

/-- What is out of range has its default, and what overflows as a decimal number is infinite. -/
theorem inRange_of_read_overflowingRoot :
    ∃ definition, Definition.read gallery none overflowingRoot = .ok definition ∧
      definition.InRange ∧
      definition.parameters.map Parameter.detail =
        [.intSlider 0 (-2147483648) 2147483647, .float (.infinity true)] ∧
      definition.editorStyle.priority = 0 ∧
      definition.rules.map Rule.nested = [[.choice ⟨"", "", ""⟩ [] 0]] := by
  refine ⟨_, rfl, ?_, by decide +kernel, by decide +kernel, ?_⟩
  · exact inRange_of_read_eq_ok (rfl : Definition.read gallery none overflowingRoot = _)
  · rfl

end Definition

end CutsceneCatalog
