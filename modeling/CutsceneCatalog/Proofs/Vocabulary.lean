import CutsceneCatalog.Vocabulary
import Mathlib.Data.List.Basic

/-!
# The vocabulary by its names

The dispatch functions of `Vocabulary` say what a name stands for; here stand the names themselves,
as lists, and each dispatch is characterized by them.  Statements about documents speak of these
lists (`ruleNames`, `ruleFieldNames`, `entryNames`, `Entry.tags`) rather than of the dispatch, so
that a name sent to the wrong place cannot hide behind its own definition.

The main statements are `RuleChild.ofTag?_eq_none_iff` and `Entry.ofTag?_eq_none_iff`, which say
which names are unknown, and `Entry.ofTag?_eq_some_iff`, which says what a known one stands for.
-/

namespace CutsceneCatalog

/-! ## Names inside a rule -/

/-- The names of the elements that are compile rules. -/
def ruleNames : List String :=
  ["optionRule", "choiceRule", "tupleRule", "listRule", "preInstruction"]

/-- The names of the rules that hold nested rules. -/
def nestingRuleNames : List String := ["optionRule", "choiceRule", "tupleRule", "listRule"]

/-- The names of the children that belong to a rule itself. -/
def ruleFieldNames : List String :=
  ["displayName", "description", "previewSeparator", "addButtonText", "startEnabled",
    "startSelected"]

theorem RuleChild.ofTag?_eq_rule_iff (tag : String) (kind : RuleKind) :
    ofTag? tag = some (.rule kind) ↔ tag = kind.tag := by
  constructor
  · intro h
    unfold ofTag? at h
    split at h <;> cases h <;> rfl
  · rintro rfl
    exact ofTag?_tag kind

theorem RuleChild.ofTag?_eq_field_iff (tag : String) :
    ofTag? tag = some .field ↔ tag ∈ ruleFieldNames := by
  constructor
  · intro h
    unfold ofTag? at h
    split at h <;> simp_all [ruleFieldNames]
  · intro h
    simp only [ruleFieldNames, List.mem_cons, List.not_mem_nil, or_false] at h
    rcases h with rfl | rfl | rfl | rfl | rfl | rfl <;> rfl

theorem mem_ruleNames_iff (tag : String) :
    tag ∈ ruleNames ↔ ∃ kind : RuleKind, tag = kind.tag := by
  constructor
  · intro h
    simp only [ruleNames, List.mem_cons, List.not_mem_nil, or_false] at h
    rcases h with rfl | rfl | rfl | rfl | rfl
    · exact ⟨.option, rfl⟩
    · exact ⟨.choice, rfl⟩
    · exact ⟨.tuple, rfl⟩
    · exact ⟨.list, rfl⟩
    · exact ⟨.preInstruction, rfl⟩
  · rintro ⟨kind, rfl⟩
    cases kind <;> simp [ruleNames, RuleKind.tag]

theorem tag_mem_ruleNames (kind : RuleKind) : kind.tag ∈ ruleNames :=
  (mem_ruleNames_iff kind.tag).mpr ⟨kind, rfl⟩

theorem RuleKind.tag_injective {kind other : RuleKind} (h : kind.tag = other.tag) :
    kind = other := by
  have hrule := (RuleChild.ofTag?_eq_rule_iff kind.tag other).mpr h
  rw [RuleChild.ofTag?_tag] at hrule
  exact RuleChild.rule.inj (Option.some.inj hrule)

theorem tag_mem_nestingRuleNames_iff (kind : RuleKind) :
    kind.tag ∈ nestingRuleNames ↔ kind ≠ .preInstruction := by
  cases kind <;> simp [nestingRuleNames, RuleKind.tag]

theorem mem_ruleNames_of_mem_nesting {tag : String} (h : tag ∈ nestingRuleNames) :
    tag ∈ ruleNames := by
  simp only [nestingRuleNames, ruleNames, List.mem_cons, List.not_mem_nil, or_false] at h ⊢
  tauto

/-- A child of a rule is unknown exactly when it is named neither like a rule nor like a field. -/
theorem RuleChild.ofTag?_eq_none_iff (tag : String) :
    ofTag? tag = none ↔ tag ∉ ruleNames ∧ tag ∉ ruleFieldNames := by
  rw [← ofTag?_eq_field_iff, mem_ruleNames_iff]
  simp only [← ofTag?_eq_rule_iff]
  cases h : ofTag? tag with
  | none => simp
  | some child => cases child <;> simp

/-- A name inside a rule is that of a kind of rule, that of a field, or unknown. -/
theorem RuleChild.name_cases (name : String) :
    (∃ kind : RuleKind, name = kind.tag) ∨ name ∈ ruleFieldNames ∨
      name ∉ ruleNames ∧ name ∉ ruleFieldNames := by
  rw [← mem_ruleNames_iff]
  tauto

theorem not_mem_ruleFieldNames_of_mem_ruleNames {name : String} (h : name ∈ ruleNames) :
    name ∉ ruleFieldNames := by
  revert name
  decide

/-- The names of the fields that a rule of the given kind has. -/
def RuleKind.fieldNames : RuleKind → List String
  | .option => ["displayName", "description", "startEnabled"]
  | .choice => ["displayName", "description", "startSelected"]
  | .tuple => ["displayName", "description", "previewSeparator"]
  | .list => ["displayName", "description", "addButtonText", "previewSeparator"]
  | .preInstruction => ["displayName", "description", "opcode"]

theorem RuleKind.nodup_fieldNames (kind : RuleKind) : kind.fieldNames.Nodup := by
  cases kind <;> decide

theorem RuleKind.not_mem_ruleNames_of_mem_fieldNames {kind : RuleKind} {name : String}
    (h : name ∈ kind.fieldNames) : name ∉ ruleNames := by
  revert name
  cases kind <;> decide

theorem RuleKind.mem_ruleFieldNames_of_mem_fieldNames {kind : RuleKind}
    (hkind : kind ≠ .preInstruction) {name : String} (h : name ∈ kind.fieldNames) :
    name ∈ ruleFieldNames := by
  revert name
  cases kind <;> first | exact absurd rfl hkind | decide

/-! ## Names below the root -/

/-- The names of the children that a document's root may have. -/
def entryNames : List String :=
  ["opcode", "implementation", "icon", "displayName", "description", "category", "editorNodeInfo",
    "hideDefaultOutput", "boolParameter", "intParameter", "intSliderParameter", "floatParameter",
    "floatSliderParameter", "lineParameter", "multilineParameter", "colorParameter",
    "outputParameter", "textTerm", "argumentTerm", "compileRuleTerm", "optionRule", "choiceRule",
    "tupleRule", "listRule"]

/-- The names of parameters. -/
def parameterNames : List String :=
  ["boolParameter", "intParameter", "intSliderParameter", "floatParameter",
    "floatSliderParameter", "lineParameter", "multilineParameter", "colorParameter",
    "outputParameter"]

/-- The names that stand for an entry. -/
def Entry.tags : Entry → List String
  | .opcode => ["opcode"]
  | .parameter kind => [kind.tag]
  | .implementation => ["implementation"]
  | .icon => ["icon"]
  | .displayName => ["displayName"]
  | .description => ["description"]
  | .category => ["category"]
  | .editorStyle => ["editorNodeInfo"]
  | .hideDefaultOutput => ["hideDefaultOutput"]
  | .previewTerm => ["textTerm", "argumentTerm", "compileRuleTerm"]
  | .rule .preInstruction => []
  | .rule kind => [kind.tag]

theorem ParameterKind.ofTag?_eq_some_iff (tag : String) (kind : ParameterKind) :
    ofTag? tag = some kind ↔ tag = kind.tag := by
  constructor
  · intro h
    unfold ofTag? at h
    split at h <;> cases h <;> rfl
  · rintro rfl
    exact ofTag?_tag kind

theorem mem_parameterNames_iff (tag : String) :
    tag ∈ parameterNames ↔ ∃ kind : ParameterKind, tag = kind.tag := by
  constructor
  · intro h
    simp only [parameterNames, List.mem_cons, List.not_mem_nil, or_false] at h
    rcases h with rfl | rfl | rfl | rfl | rfl | rfl | rfl | rfl | rfl
    · exact ⟨.bool, rfl⟩
    · exact ⟨.int, rfl⟩
    · exact ⟨.intSlider, rfl⟩
    · exact ⟨.float, rfl⟩
    · exact ⟨.floatSlider, rfl⟩
    · exact ⟨.line, rfl⟩
    · exact ⟨.multiline, rfl⟩
    · exact ⟨.color, rfl⟩
    · exact ⟨.output, rfl⟩
  · rintro ⟨kind, rfl⟩
    cases kind <;> simp [parameterNames, ParameterKind.tag]

theorem Entry.ofTag?_eq_some_iff (tag : String) (entry : Entry) :
    ofTag? tag = some entry ↔ tag ∈ entry.tags := by
  constructor
  · intro h
    unfold ofTag? at h
    split at h
    case h_16 =>
      obtain ⟨kind, hkind, rfl⟩ := Option.map_eq_some_iff.mp h
      simp [tags, (ParameterKind.ofTag?_eq_some_iff tag kind).mp hkind]
    all_goals cases h; simp [tags, RuleKind.tag]
  · intro h
    cases entry with
    | parameter kind =>
      obtain rfl : tag = kind.tag := by simpa [tags] using h
      cases kind <;> rfl
    | rule kind => cases kind <;> simp_all [tags, RuleKind.tag, ofTag?]
    | previewTerm =>
      simp only [tags, List.mem_cons, List.not_mem_nil, or_false] at h
      rcases h with rfl | rfl | rfl <;> rfl
    | _ => simp_all [tags, ofTag?]

theorem Entry.mem_entryNames_of_mem_tags {tag : String} {entry : Entry} (h : tag ∈ entry.tags) :
    tag ∈ entryNames := by
  cases entry with
  | parameter kind => cases kind <;> simp_all [tags, ParameterKind.tag, entryNames]
  | rule kind => cases kind <;> simp_all [tags, RuleKind.tag, entryNames]
  | previewTerm =>
    simp only [tags, List.mem_cons, List.not_mem_nil, or_false] at h
    rcases h with rfl | rfl | rfl <;> simp [entryNames]
  | _ => simp_all [tags, entryNames]

/-- A child of the root is unknown exactly when its name is not in the vocabulary. -/
theorem Entry.ofTag?_eq_none_iff (tag : String) : ofTag? tag = none ↔ tag ∉ entryNames := by
  constructor
  · intro h hmem
    simp only [entryNames, List.mem_cons, List.not_mem_nil, or_false] at hmem
    rcases hmem with rfl | rfl | rfl | rfl | rfl | rfl | rfl | rfl | rfl | rfl | rfl | rfl |
      rfl | rfl | rfl | rfl | rfl | rfl | rfl | rfl | rfl | rfl | rfl | rfl <;>
      cases h
  · intro h
    cases hentry : ofTag? tag with
    | none => rfl
    | some entry =>
      exact absurd (mem_entryNames_of_mem_tags ((ofTag?_eq_some_iff tag entry).mp hentry)) h

/-- A rule's name below the root stands for a rule, if for anything. -/
theorem Entry.exists_eq_rule_of_mem_ruleNames {tag : String} {entry : Entry}
    (h : ofTag? tag = some entry) (hrule : tag ∈ ruleNames) : ∃ kind, entry = .rule kind := by
  obtain ⟨kind, rfl⟩ := (mem_ruleNames_iff tag).mp hrule
  cases kind with
  | preInstruction => cases h
  | option => exact ⟨.option, (Option.some.inj h).symm⟩
  | choice => exact ⟨.choice, (Option.some.inj h).symm⟩
  | tuple => exact ⟨.tuple, (Option.some.inj h).symm⟩
  | list => exact ⟨.list, (Option.some.inj h).symm⟩

theorem Entry.ofTag?_eq_rule_iff (tag : String) (kind : RuleKind) :
    ofTag? tag = some (.rule kind) ↔ tag = kind.tag ∧ tag ∈ nestingRuleNames := by
  rw [ofTag?_eq_some_iff]
  cases kind <;> simp_all [tags, RuleKind.tag, nestingRuleNames]

section

variable {tag : String} {entry : Entry} (h : Entry.ofTag? tag = some entry)
include h

/-- What stands for one entry has the only name of another exactly if the two are the same. -/
theorem Entry.eq_name_iff (other : Entry) {name : String} (hother : other.tags = [name]) :
    tag = name ↔ entry = other := by
  have hmem : tag = name ↔ tag ∈ other.tags := by simp [hother]
  rw [hmem, ← ofTag?_eq_some_iff, h, Option.some_inj]

theorem Entry.mem_parameterNames_iff : tag ∈ parameterNames ↔ ∃ kind, entry = .parameter kind := by
  have htag (kind : ParameterKind) : tag = kind.tag ↔ entry = .parameter kind :=
    eq_name_iff h _ rfl
  simp only [CutsceneCatalog.mem_parameterNames_iff, htag]

theorem Entry.mem_nestingRuleNames_iff : tag ∈ nestingRuleNames ↔ ∃ kind, entry = .rule kind := by
  constructor
  · intro hmem
    exact exists_eq_rule_of_mem_ruleNames h (mem_ruleNames_of_mem_nesting hmem)
  · rintro ⟨kind, rfl⟩
    exact ((ofTag?_eq_rule_iff tag kind).mp h).2

end

end CutsceneCatalog
