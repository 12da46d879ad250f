import CutsceneCatalog.Proofs.EntryReading
import CutsceneCatalog.Proofs.Offender

/-!
# The order of entries

In what order the children of a root stand matters less than it may seem.  Whether a definition is
accepted does not depend on it at all, because each child is refused or not for what it is itself.
And the definition only depends on the order of children that count for the same thing: the
parameters, the rules, or the children of one name of which the last decides (`orderedGroups`).
Terms of a preview are passed over wherever they stand.

No two entries have to be exchanged for this.  What a definition says is known of its children
without a pass over them (`Definition.ReadFrom`), and when it is refused is known of them one by one
(`Definition.refusal_read`); both are read off in `Definition.read_of_rearranged`.
-/

namespace CutsceneCatalog

/-- The groups of names within which the order of children counts. -/
def orderedGroups : List (List String) :=
  [parameterNames, nestingRuleNames, ["opcode"], ["implementation"], ["icon"], ["displayName"],
    ["description"], ["category"], ["editorNodeInfo"]]

/-- The names of the terms of a preview. -/
def previewTermNames : List String := ["textTerm", "argumentTerm", "compileRuleTerm"]

theorem lastNamed_congr {name : String} {children others : List Element}
    (h : children.filter (·.name ∈ [name]) = others.filter (·.name ∈ [name])) :
    lastNamed name children = lastNamed name others := by
  simp only [List.mem_singleton] at h
  rw [lastNamed, lastNamed, h]

/-- A fold may leave out what makes no difference to it. -/
theorem foldlM_filter {ε α β : Type} {f : β → α → Except ε β} {p : α → Prop} [DecidablePred p]
    (h : ∀ a, ¬ p a → ∀ b, f b a = .ok b) (l : List α) (b : β) :
    (l.filter p).foldlM f b = l.foldlM f b := by
  induction l generalizing b with
  | nil => rfl
  | cons a rest ih =>
    by_cases ha : p a
    · rw [List.filter_cons_of_pos (by simpa using ha), List.foldlM_cons, List.foldlM_cons]
      simp only [ih]
    · rw [List.filter_cons_of_neg (by simpa using ha), List.foldlM_cons, h a ha b, ih]
      rfl

attribute [ext] Definition

namespace Definition

variable {around : Surroundings} {file : Option String} {definition other : Definition}
  {children others : List Element}

/-- The same children say the same, if those that count for one thing come in the same order. -/
theorem ReadFrom.eq_of_sameOrder (hread : definition.ReadFrom around file children)
    (hother : other.ReadFrom around file others) (hperm : children.Perm others)
    (horder : ∀ group ∈ orderedGroups,
      children.filter (·.name ∈ group) = others.filter (·.name ∈ group)) :
    definition = other := by
  have hlast (name : String) (hname : [name] ∈ orderedGroups) :
      lastNamed name children = lastNamed name others := lastNamed_congr (horder [name] hname)
  have htext (name : String) (hname : [name] ∈ orderedGroups) :
      lastText name children = lastText name others := by
    rw [lastText, lastText, hlast name hname]
  apply Definition.ext
  case opcode => rw [hread.opcode, hother.opcode, htext "opcode" (by decide)]
  case displayName => rw [hread.displayName, hother.displayName, htext "displayName" (by decide)]
  case description => rw [hread.description, hother.description, htext "description" (by decide)]
  case category => rw [hread.category, hother.category, htext "category" (by decide)]
  case implementation =>
    rw [hread.implementation, hother.implementation, hlast "implementation" (by decide)]
  case icon => rw [hread.icon, hother.icon, hlast "icon" (by decide)]
  case editorStyle => rw [hread.editorStyle, hother.editorStyle, hlast "editorNodeInfo" (by decide)]
  case hideDefaultOutput =>
    rw [Bool.eq_iff_iff, hread.hideDefaultOutput, hother.hideDefaultOutput]
    simp only [hperm.mem_iff]
  case parameters =>
    have hok : Function.Injective (Except.ok : Parameter → Except ParameterError Parameter) :=
      fun _ _ h => Except.ok.inj h
    refine hok.list_map ?_
    rw [hread.parameters, hother.parameters, horder parameterNames (by decide)]
  case rules =>
    have hok : Function.Injective fun rule : Rule =>
        (Except.ok (some rule) : Except ImportError (Option Rule)) :=
      fun _ _ h => Option.some.inj (Except.ok.inj h)
    refine hok.list_map ?_
    rw [hread.rules, hother.rules, horder nestingRuleNames (by decide)]
  case previewTerms => rw [hread.previewTerms, hother.previewTerms]

theorem extend_of_previewTerm {e : Element} (h : e.name ∈ previewTermNames) :
    extend around file definition e = .ok definition := by
  have hentry : Entry.ofTag? e.name = some .previewTerm := (Entry.ofTag?_eq_some_iff _ _).mpr h
  rw [extend, hentry]

/-- A definition is accepted if each child of the root is, whatever stands around it. -/
theorem exists_read_eq_ok_iff (file : Option String) (root : Element) :
    (∃ definition, read around file root = .ok definition) ↔
      ∀ e ∈ root.children,
        (e.visits 1).findSome? (Visit.offence? around.settings.maxRuleDepth) = none := by
  rw [← refusal_eq_none_iff, refusal_read, Option.map_eq_none_iff, findSome?_visitsAll,
    List.findSome?_eq_none_iff]

/-- The order of the children of a root does not decide whether the definition is accepted, and it
decides what the definition says only within a group; terms of a preview do not decide anything. -/
theorem read_of_rearranged (around : Surroundings) (file : Option String) (root other : Element) :
    (root.children.Perm other.children →
        ((∃ definition, read around file root = .ok definition) ↔
          ∃ definition, read around file other = .ok definition)) ∧
      (root.children.Perm other.children →
        (∀ group ∈ orderedGroups,
          root.children.filter (·.name ∈ group) = other.children.filter (·.name ∈ group)) →
        ∀ definition, read around file root = .ok definition ↔
          read around file other = .ok definition) ∧
      (root.children.filter (·.name ∉ previewTermNames) =
          other.children.filter (·.name ∉ previewTermNames) →
        read around file root = read around file other) := by
  have haccepted (hperm : root.children.Perm other.children) :
      (∃ definition, read around file root = .ok definition) ↔
        ∃ definition, read around file other = .ok definition := by
    simp only [exists_read_eq_ok_iff, hperm.mem_iff]
  refine ⟨haccepted, ?_, ?_⟩
  · intro hperm horder definition
    have hsame {definition definition' : Definition}
        (h : read around file root = .ok definition)
        (h' : read around file other = .ok definition') : definition = definition' :=
      ReadFrom.eq_of_sameOrder (ReadFrom.foldlM h ReadFrom.empty)
        (ReadFrom.foldlM h' ReadFrom.empty) hperm horder
    constructor
    · intro h
      obtain ⟨definition', h'⟩ := (haccepted hperm).mp ⟨definition, h⟩
      rw [hsame h h', h']
    · intro h'
      obtain ⟨definition', h⟩ := (haccepted hperm).mpr ⟨definition, h'⟩
      rw [← hsame h h', h]
  · intro hfilter
    have hidle : ∀ e : Element, ¬ e.name ∉ previewTermNames → ∀ definition,
        extend around file definition e = .ok definition := fun e he definition =>
      extend_of_previewTerm (not_not.mp he)
    rw [read, read, ← foldlM_filter hidle, hfilter, foldlM_filter hidle]

/-- A root with the given children. -/
def rootOf (children : List Element) : Element := ⟨"definition", "", [], children⟩

/-- Children that say what the instruction is called, with an opcode too many. -/
def labels : List Element :=
  let leaf (name text : String) : Element := ⟨name, text, [], []⟩
  [leaf "opcode" "X", leaf "icon" "a", leaf "opcode" "Y"]

/-- Children that say what the arguments of the instruction are. -/
def arguments : List Element :=
  let leaf (name : String) : Element := ⟨name, "", [], []⟩
  [leaf "boolParameter", ⟨"optionRule", "", [("id", "r")], [leaf "preInstruction"]⟩,
    leaf "hideDefaultOutput", leaf "intParameter"]

/-- The labels may follow the arguments, and a term of a preview may stand between them. -/
theorem read_rootOf_rearranged :
    (∃ definition, read gallery none (rootOf (labels ++ arguments)) = .ok definition ∧
        definition.opcode = "Y" ∧ definition.parameters.length = 2 ∧
        read gallery none (rootOf (arguments ++ labels)) = .ok definition) ∧
      (∃ definition, read gallery none (rootOf (labels.reverse ++ arguments)) = .ok definition) ∧
      read gallery none (rootOf (labels ++ ⟨"textTerm", "", [], []⟩ :: arguments)) =
        read gallery none (rootOf (labels ++ arguments)) := by
  have hperm : (rootOf (labels ++ arguments)).children.Perm
      (rootOf (arguments ++ labels)).children := List.perm_append_comm
  have hreverse : (rootOf (labels ++ arguments)).children.Perm
      (rootOf (labels.reverse ++ arguments)).children :=
    (List.reverse_perm labels).symm.append_right arguments
  have horder : ∀ group ∈ orderedGroups,
      (rootOf (labels ++ arguments)).children.filter (·.name ∈ group) =
        (rootOf (arguments ++ labels)).children.filter (·.name ∈ group) := by
    simp only [orderedGroups, List.forall_mem_cons]
    exact ⟨rfl, rfl, rfl, rfl, rfl, rfl, rfl, rfl, rfl, nofun⟩
  obtain ⟨definition, hread, hopcode, hparameters⟩ :
      ∃ definition, read gallery none (rootOf (labels ++ arguments)) = .ok definition ∧
        definition.opcode = "Y" ∧ definition.parameters.length = 2 := ⟨_, rfl, rfl, rfl⟩
  obtain ⟨-, hgrouped, -⟩ :=
    read_of_rearranged gallery none (rootOf (labels ++ arguments)) (rootOf (arguments ++ labels))
  refine ⟨⟨definition, hread, hopcode, hparameters, ?_⟩, ?_, ?_⟩
  · exact (hgrouped hperm horder definition).mp hread
  · exact ((read_of_rearranged gallery none _ _).1 hreverse).mp ⟨definition, hread⟩
  · exact (read_of_rearranged gallery none _ _).2.2 rfl

end Definition

end CutsceneCatalog
