import CutsceneCatalog.Definition
import CutsceneCatalog.Libraries.Standard
import CutsceneCatalog.Proofs.RuleReading
import Mathlib.Data.List.Basic

/-!
# What a definition says of its document

A definition is read in one pass, and each child of the root changes what has been read so far.
`Definition.ReadFrom` says the outcome without a pass: a text is that of the last child of its name,
parameters and rules are those of all children of their names in document order, and the flag is
whether a child of its name is there at all.

`Definition.readFrom_of_read_eq_ok` is the main statement.  The predicate is its own loop invariant:
it holds of the empty definition and no children, and `ReadFrom.extend` carries it over one child,
whatever that child is.
-/

namespace CutsceneCatalog

/-! ## Children of a name -/

/-- The last child of a name. -/
def lastNamed (name : String) (children : List Element) : Option Element :=
  (children.filter (·.name = name)).getLast?

/-- The text of the last child of a name; there is none where there is no such child. -/
def lastText (name : String) (children : List Element) : String :=
  ((lastNamed name children).map Element.innerText).getD ""

theorem lastNamed_append (name : String) (children : List Element) (e : Element) :
    lastNamed name (children ++ [e]) =
      if e.name = name then some e else lastNamed name children := by
  unfold lastNamed
  rw [List.filter_append]
  by_cases h : e.name = name <;> simp [h]

theorem lastText_append (name : String) (children : List Element) (e : Element) :
    lastText name (children ++ [e]) =
      if e.name = name then e.innerText else lastText name children := by
  unfold lastText
  rw [lastNamed_append]
  by_cases h : e.name = name <;> simp [h]

/-! ## The outcome of a reading -/

namespace Definition

/-- A definition that says what the children of a root say, each field by the children that count
for it. -/
structure ReadFrom (around : Surroundings) (file : Option String) (children : List Element)
    (definition : Definition) : Prop where
  opcode : definition.opcode = lastText "opcode" children
  displayName : definition.displayName = lastText "displayName" children
  description : definition.description = lastText "description" children
  category : definition.category = lastText "category" children
  implementation : definition.implementation =
    ((lastNamed "implementation" children).map fun e => implementationText e.innerText).getD ""
  /-- An icon that cannot be loaded is none, whatever icons stand before it. -/
  icon : definition.icon = (lastNamed "icon" children).bind fun e =>
    Icon.load? around.files around.host around.settings around.folder e.innerText
  /-- A style is read from one child, and nothing is taken over from earlier ones. -/
  editorStyle : definition.editorStyle =
    ((lastNamed "editorNodeInfo" children).map EditorStyle.ofElement).getD .standard
  hideDefaultOutput : definition.hideDefaultOutput = true ↔
    ∃ e ∈ children, e.name = "hideDefaultOutput"
  /-- Each parameter is that of a child of its own, and no child is left out. -/
  parameters : definition.parameters.map Except.ok =
    (children.filter (·.name ∈ parameterNames)).map Parameter.ofElement
  /-- Each rule is that of a child of its own, and no child is left out. -/
  rules : definition.rules.map (fun rule => Except.ok (some rule)) =
    (children.filter (·.name ∈ nestingRuleNames)).map
      (Rule.ofElement around.settings.maxRuleDepth file 1)
  previewTerms : definition.previewTerms = []

end Definition

/-! ## One child -/

theorem Parameter.ofElement_eq_ok {e : Element} {kind : ParameterKind}
    (h : Entry.ofTag? e.name = some (.parameter kind)) :
    Parameter.ofElement e = .ok (.ofKind kind e) := by
  obtain hname : e.name = kind.tag := by
    simpa [Entry.tags] using (Entry.ofTag?_eq_some_iff e.name _).mp h
  simp [Parameter.ofElement, hname, ParameterKind.ofTag?_tag]

namespace Definition

variable {around : Surroundings} {file : Option String} {read : List Element}
  {definition next : Definition} {e : Element}

/-- A rule below the root is read and put behind those before it. -/
theorem extend_rule_eq_ok {kind : RuleKind} (hentry : Entry.ofTag? e.name = some (.rule kind))
    (h : extend around file definition e = .ok next) :
    ∃ rule, Rule.ofElement around.settings.maxRuleDepth file 1 e = .ok (some rule) ∧
      next = { definition with rules := definition.rules ++ [rule] } := by
  have hname := ((Entry.ofTag?_eq_rule_iff e.name kind).mp hentry).1
  simp only [extend, hentry] at h
  cases hrule : Rule.ofElement around.settings.maxRuleDepth file 1 e with
  | error error =>
    rw [hrule] at h
    cases h
  | ok rule =>
    cases rule with
    | none => exact absurd hrule (Rule.ofElement_ne_ok_none hname)
    | some rule =>
      rw [hrule] at h
      exact ⟨rule, rfl, (Except.ok.inj h).symm⟩

/-- What one child of the root changes: the field that it counts for, and nothing else. -/
structure Extended (around : Surroundings) (file : Option String) (e : Element)
    (definition next : Definition) : Prop where
  opcode : next.opcode = if e.name = "opcode" then e.innerText else definition.opcode
  displayName : next.displayName =
    if e.name = "displayName" then e.innerText else definition.displayName
  description : next.description =
    if e.name = "description" then e.innerText else definition.description
  category : next.category = if e.name = "category" then e.innerText else definition.category
  implementation : next.implementation =
    if e.name = "implementation" then implementationText e.innerText
    else definition.implementation
  icon : next.icon =
    if e.name = "icon" then
      Icon.load? around.files around.host around.settings around.folder e.innerText
    else definition.icon
  editorStyle : next.editorStyle =
    if e.name = "editorNodeInfo" then .ofElement e else definition.editorStyle
  hideDefaultOutput : next.hideDefaultOutput = true ↔
    definition.hideDefaultOutput = true ∨ e.name = "hideDefaultOutput"
  parameters : next.parameters.map Except.ok = definition.parameters.map Except.ok ++
    if e.name ∈ parameterNames then [Parameter.ofElement e] else []
  rules : next.rules.map (fun rule => Except.ok (some rule)) =
    definition.rules.map (fun rule => Except.ok (some rule)) ++
      if e.name ∈ nestingRuleNames then [Rule.ofElement around.settings.maxRuleDepth file 1 e]
      else []
  previewTerms : next.previewTerms = definition.previewTerms

theorem extended_of_extend_eq_ok (h : extend around file definition e = .ok next) :
    Extended around file e definition next := by
  cases hentry : Entry.ofTag? e.name with
  | none => simp [extend, hentry] at h
  | some entry =>
    -- The names play no part any more: each condition on them is one on the entry.
    have hopcode := Entry.eq_name_iff hentry .opcode rfl
    have hdisplayName := Entry.eq_name_iff hentry .displayName rfl
    have hdescription := Entry.eq_name_iff hentry .description rfl
    have hcategory := Entry.eq_name_iff hentry .category rfl
    have himplementation := Entry.eq_name_iff hentry .implementation rfl
    have hicon := Entry.eq_name_iff hentry .icon rfl
    have hstyle := Entry.eq_name_iff hentry .editorStyle rfl
    have hhide := Entry.eq_name_iff hentry .hideDefaultOutput rfl
    have hparameters := Entry.mem_parameterNames_iff hentry
    have hrules := Entry.mem_nestingRuleNames_iff hentry
    cases entry with
    | rule kind =>
      obtain ⟨rule, hrule, rfl⟩ := extend_rule_eq_ok hentry h
      constructor <;> simp [*]
    | parameter kind =>
      have hown := Parameter.ofElement_eq_ok hentry
      simp only [extend, hentry, Except.ok.injEq] at h
      subst h
      constructor <;> simp [*]
    | _ =>
      simp only [extend, hentry, Except.ok.injEq] at h
      subst h
      constructor <;> simp [*]

namespace ReadFrom

/-- The empty definition is what no children say. -/
theorem empty : Definition.empty.ReadFrom around file [] := by
  constructor <;> simp [Definition.empty, lastText, lastNamed]

/-- One more child keeps the invariant. -/
theorem extend (h : Definition.extend around file definition e = .ok next)
    (hread : definition.ReadFrom around file read) : next.ReadFrom around file (read ++ [e]) := by
  have hnext := extended_of_extend_eq_ok h
  constructor
  · rw [hnext.opcode, lastText_append, hread.opcode]
  · rw [hnext.displayName, lastText_append, hread.displayName]
  · rw [hnext.description, lastText_append, hread.description]
  · rw [hnext.category, lastText_append, hread.category]
  · rw [hnext.implementation, lastNamed_append, hread.implementation]
    split <;> rfl
  · rw [hnext.icon, lastNamed_append, hread.icon]
    split <;> rfl
  · rw [hnext.editorStyle, lastNamed_append, hread.editorStyle]
    split <;> rfl
  · rw [hnext.hideDefaultOutput, hread.hideDefaultOutput]
    simp [or_and_right, exists_or]
  · rw [hnext.parameters, hread.parameters, List.filter_append, List.map_append]
    by_cases hname : e.name ∈ parameterNames <;> simp [hname]
  · rw [hnext.rules, hread.rules, List.filter_append, List.map_append]
    by_cases hname : e.name ∈ nestingRuleNames <;> simp [hname]
  · rw [hnext.previewTerms, hread.previewTerms]

/-- The invariant is kept over any number of children. -/
theorem foldlM {children : List Element}
    (h : children.foldlM (Definition.extend around file) definition = .ok next)
    (hread : definition.ReadFrom around file read) :
    next.ReadFrom around file (read ++ children) := by
  induction children generalizing definition read with
  | nil =>
    obtain rfl : definition = next := Except.ok.inj h
    simpa using hread
  | cons e rest ih =>
    rw [List.foldlM_cons] at h
    cases hstep : Definition.extend around file definition e with
    | error cause =>
      rw [hstep] at h
      cases h
    | ok middle =>
      rw [hstep] at h
      have := ih h (extend hstep hread)
      rwa [List.append_assoc] at this

end ReadFrom

/-- A definition that is read at all is what the children of the root say. -/
theorem readFrom_of_read_eq_ok {root : Element}
    (h : Definition.read around file root = .ok definition) :
    definition.ReadFrom around file root.children :=
  ReadFrom.foldlM h ReadFrom.empty

/-- A folder with nothing but an image `a` in it. -/
def gallery : Surroundings where
  files := ⟨[([⟨"a", rfl⟩], .file (.image 4 2 true))]⟩
  host := .atRoot
  settings := .standard .atRoot
  folder := ⟨.root, []⟩

/-- A root with two opcodes and two icons, of which only the first is there, among other
children. -/
def crowdedRoot : Element :=
  let leaf (name text : String) : Element := ⟨name, text, [], []⟩
  let list : Element := ⟨"listRule", "", [], []⟩
  ⟨"definition", "", [],
    [leaf "icon" "a", leaf "opcode" "X", leaf "boolParameter" "",
      ⟨"optionRule", "", [("id", "r")], [leaf "preInstruction" "", list]⟩, leaf "opcode" "Y",
      leaf "intParameter" "", leaf "icon" "b"]⟩

/-- The last opcode and the last icon count, and every parameter and rule does. -/
theorem readFrom_of_read_crowdedRoot :
    ∃ definition, Definition.read gallery none crowdedRoot = .ok definition ∧
      definition.ReadFrom gallery none crowdedRoot.children ∧ definition.opcode = "Y" ∧
      definition.icon = none ∧ definition.parameters.length = 2 ∧ definition.rules.length = 1 := by
  refine ⟨_, rfl, ?_, rfl, rfl, rfl, rfl⟩
  exact readFrom_of_read_eq_ok (rfl : Definition.read gallery none crowdedRoot = _)

end Definition

end CutsceneCatalog
