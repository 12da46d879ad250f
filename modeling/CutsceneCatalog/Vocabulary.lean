/-!
# The vocabulary of definition documents

Which element names a definition document may use, and what each of them stands for: `Entry` for the
children of the root element, `RuleChild` for the children of a compile rule.  Names are
case-sensitive, and a name in a namespace is none of these.
-/

namespace CutsceneCatalog

/-- The nine kinds of parameters. -/
inductive ParameterKind
  | bool
  | int
  | intSlider
  | float
  | floatSlider
  | line
  | multiline
  | color
  | output
deriving DecidableEq, Repr

/-- The element name of a parameter kind. -/
def ParameterKind.tag : ParameterKind → String
  | .bool => "boolParameter"
  | .int => "intParameter"
  | .intSlider => "intSliderParameter"
  | .float => "floatParameter"
  | .floatSlider => "floatSliderParameter"
  | .line => "lineParameter"
  | .multiline => "multilineParameter"
  | .color => "colorParameter"
  | .output => "outputParameter"

/-- The parameter kind that an element name stands for. -/
def ParameterKind.ofTag? : String → Option ParameterKind
  | "boolParameter" => some .bool
  | "intParameter" => some .int
  | "intSliderParameter" => some .intSlider
  | "floatParameter" => some .float
  | "floatSliderParameter" => some .floatSlider
  | "lineParameter" => some .line
  | "multilineParameter" => some .multiline
  | "colorParameter" => some .color
  | "outputParameter" => some .output
  | _ => none

theorem ParameterKind.ofTag?_tag (kind : ParameterKind) : ofTag? kind.tag = some kind := by
  cases kind <;> rfl

/-- The five kinds of compile rules. -/
inductive RuleKind
  | option
  | choice
  | tuple
  | list
  | preInstruction
deriving DecidableEq, Repr

/-- The element name of a rule kind. -/
def RuleKind.tag : RuleKind → String
  | .option => "optionRule"
  | .choice => "choiceRule"
  | .tuple => "tupleRule"
  | .list => "listRule"
  | .preInstruction => "preInstruction"

/-- What a child of a compile rule is: a nested rule, or one of the rule's own fields. -/
inductive RuleChild
  | rule (kind : RuleKind)
  | field
deriving DecidableEq, Repr

/-- What a child of a compile rule is, by its name.  The opcode of a pre-instruction is not among
the fields: a pre-instruction has no nested rules to tell its fields from. -/
def RuleChild.ofTag? : String → Option RuleChild
  | "displayName" | "description" | "previewSeparator" | "addButtonText" | "startEnabled"
  | "startSelected" => some .field
  | "optionRule" => some (.rule .option)
  | "choiceRule" => some (.rule .choice)
  | "tupleRule" => some (.rule .tuple)
  | "listRule" => some (.rule .list)
  | "preInstruction" => some (.rule .preInstruction)
  | _ => none

theorem RuleChild.ofTag?_tag (kind : RuleKind) : ofTag? kind.tag = some (.rule kind) := by
  cases kind <;> rfl

/-- What a child of a document's root says of the definition. -/
inductive Entry
  | opcode
  | parameter (kind : ParameterKind)
  | implementation
  | icon
  | displayName
  | description
  | category
  | editorStyle
  | hideDefaultOutput
  /-- A term of the preview: it may stand in a document, but nothing is read from it. -/
  | previewTerm
  | rule (kind : RuleKind)
deriving DecidableEq, Repr

/-- What a child of the root says, by its name; no pre-instruction stands outside a rule. -/
def Entry.ofTag? (tag : String) : Option Entry :=
  match tag with
  | "opcode" => some .opcode
  | "implementation" => some .implementation
  | "icon" => some .icon
  | "displayName" => some .displayName
  | "description" => some .description
  | "category" => some .category
  | "editorNodeInfo" => some .editorStyle
  | "hideDefaultOutput" => some .hideDefaultOutput
  | "textTerm" | "argumentTerm" | "compileRuleTerm" => some .previewTerm
  | "optionRule" => some (.rule .option)
  | "choiceRule" => some (.rule .choice)
  | "tupleRule" => some (.rule .tuple)
  | "listRule" => some (.rule .list)
  | _ => (ParameterKind.ofTag? tag).map .parameter

end CutsceneCatalog
