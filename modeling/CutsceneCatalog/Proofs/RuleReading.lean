import CutsceneCatalog.Proofs.FieldReading
import CutsceneCatalog.Proofs.NestedRules
import CutsceneCatalog.Proofs.Outcome
import CutsceneCatalog.Proofs.Vocabulary

/-!
# The reading of rules, child by child

The reading of an element as a rule goes into its children only for the kinds that hold nested
rules, and there takes one child after the other.  `Rule.ofChildren_cons` says so in terms of
`Rule.ofElement` alone: a child is read as an element of its own, and either it is a rule and goes
in front of the others, or it is a field and is left out.  `Rule.ofElement_of_rule` goes back from
an element to its children.  Together they are all that a proof about rules needs of the reading, in
an induction on the element (`Element.induct`).
-/

namespace CutsceneCatalog

/-- What holds of an element whenever it holds of its children, holds of every element. -/
@[elab_as_elim]
theorem Element.induct {p : Element → Prop}
    (step : ∀ e : Element, (∀ child ∈ e.children, p child) → p e) (e : Element) : p e :=
  step e fun child _ => induct step child
termination_by sizeOf e
decreasing_by
  have hmem : child ∈ e.children := ‹_›
  have hlt : sizeOf child < sizeOf e.children := List.sizeOf_lt_of_mem hmem
  cases e
  simp only [mk.sizeOf_spec] at hlt ⊢
  omega

/-- What rules of a kind keep of those that are found inside them: all, the last one or none. -/
def RuleKind.keep {α : Type} : RuleKind → List α → List α
  | .option, found => found.getLast?.toList
  | .choice, found => found
  | .tuple, found => found
  | .list, found => found.getLast?.toList
  | .preInstruction, _ => []

theorem RuleKind.map_keep {α β : Type} (kind : RuleKind) (f : α → β) (found : List α) :
    (kind.keep found).map f = kind.keep (found.map f) := by
  cases kind <;> simp [keep, Option.toList_map]

namespace Rule

variable {maxDepth depth : Int} {file : Option String} {e : Element} {kind : RuleKind} {rule : Rule}

theorem kind_compose (kind : RuleKind) (e : Element) (found : List Rule) :
    (compose kind e found).kind = kind := by
  cases kind <;> rfl

theorem nested_compose (kind : RuleKind) (e : Element) (found : List Rule) :
    (compose kind e found).nested = kind.keep found := by
  cases kind <;> rfl

/-- Of its element, a rule of a kind takes over the identifier and the fields of that kind. -/
theorem compose_congr {other : Element} (h : e.AgreeOn kind.fieldNames other) (found : List Rule) :
    compose kind other found = compose kind e found := by
  have heading : Heading.ofElement other = Heading.ofElement e :=
    Heading.ofElement_eq_of_agreeOn h (by cases kind <;> decide) (by cases kind <;> decide)
  have hfield {α : Type} {name : String} (hname : name ∈ kind.fieldNames)
      (read : String → Except ScalarError α) (fallback : α) :
      other.field name read fallback = e.field name read fallback :=
    h.field_congr hname read fallback
  cases kind with
  | option =>
    have hstart := hfield (by decide : "startEnabled" ∈ RuleKind.option.fieldNames) boolOfText
    simp only [compose, heading, Element.boolField, hstart]
  | choice =>
    have hstart := hfield (by decide : "startSelected" ∈ RuleKind.choice.fieldNames) intOfText
    simp only [compose, heading, Element.intField, hstart]
  | tuple =>
    have hseparator := hfield (by decide : "previewSeparator" ∈ RuleKind.tuple.fieldNames) .ok
    simp only [compose, heading, Element.textField, hseparator]
  | list =>
    have hbutton := hfield (by decide : "addButtonText" ∈ RuleKind.list.fieldNames) .ok
    have hseparator := hfield (by decide : "previewSeparator" ∈ RuleKind.list.fieldNames) .ok
    simp only [compose, heading, Element.textField, hbutton, hseparator]
  | preInstruction =>
    have hopcode := hfield (by decide : "opcode" ∈ RuleKind.preInstruction.fieldNames) .ok
    simp only [compose, heading, Element.textField, hopcode]

theorem ofKind_preInstruction :
    ofKind maxDepth file .preInstruction depth e = .ok (compose .preInstruction e []) := by
  cases e
  rfl

theorem ofKind_of_ne (h : kind ≠ .preInstruction) :
    ofKind maxDepth file kind depth e = (ofChildren maxDepth file (depth + 1) e.children).map
      (compose kind e) := by
  cases e
  cases kind <;> first | exact absurd rfl h | rfl

theorem ofElement_of_unknown (h : e.name ∉ ruleNames) (h' : e.name ∉ ruleFieldNames) :
    ofElement maxDepth file depth e = .error ⟨.rule (.notARule e.name), file⟩ := by
  unfold ofElement
  rw [(RuleChild.ofTag?_eq_none_iff e.name).mpr ⟨h, h'⟩]

theorem ofElement_of_field (h : e.name ∈ ruleFieldNames) :
    ofElement maxDepth file depth e = .ok none := by
  unfold ofElement
  rw [(RuleChild.ofTag?_eq_field_iff e.name).mpr h]

theorem ofElement_of_tooDeep (h : e.name = kind.tag) (hdepth : maxDepth < depth) :
    ofElement maxDepth file depth e = .error ⟨.rule (.tooDeep depth maxDepth), file⟩ := by
  unfold ofElement
  rw [(RuleChild.ofTag?_eq_rule_iff e.name kind).mpr h]
  exact if_pos hdepth

theorem ofElement_of_rule (h : e.name = kind.tag) (hdepth : depth ≤ maxDepth) :
    ofElement maxDepth file depth e = (ofKind maxDepth file kind depth e).map some := by
  unfold ofElement
  rw [(RuleChild.ofTag?_eq_rule_iff e.name kind).mpr h]
  exact if_neg (Int.not_lt.mpr hdepth)

/-- The first child is read as an element, and adds what it is read as, if it is a rule. -/
theorem ofChildren_cons (child : Element) (rest : List Element) :
    ofChildren maxDepth file depth (child :: rest) = do
      let first ← ofElement maxDepth file depth child
      let others ← ofChildren maxDepth file depth rest
      return first.toList ++ others := by
  rw [ofChildren, ofElement]
  cases RuleChild.ofTag? child.name with
  | none => rfl
  | some role =>
    cases role with
    | field => cases ofChildren maxDepth file depth rest <;> rfl
    | rule kind =>
      by_cases hdepth : maxDepth < depth
      · simp only [if_pos hdepth]
        rfl
      · simp only [if_neg hdepth]
        cases ofKind maxDepth file kind depth child <;> rfl

theorem ofChildren_cons_of_field {child : Element} (h : child.name ∈ ruleFieldNames)
    (rest : List Element) :
    ofChildren maxDepth file depth (child :: rest) = ofChildren maxDepth file depth rest := by
  rw [ofChildren_cons, ofElement_of_field h]
  cases ofChildren maxDepth file depth rest <;> rfl

/-- Neighbors are read one after the other, and what is found is put together. -/
theorem ofChildren_append (before after : List Element) :
    ofChildren maxDepth file depth (before ++ after) = do
      let found ← ofChildren maxDepth file depth before
      let others ← ofChildren maxDepth file depth after
      return found ++ others := by
  induction before with
  | nil =>
    rw [List.nil_append]
    cases h : ofChildren maxDepth file depth after <;> rfl
  | cons child rest ih =>
    rw [List.cons_append, ofChildren_cons, ofChildren_cons, ih]
    cases ofElement maxDepth file depth child with
    | error fault => rfl
    | ok first =>
      cases ofChildren maxDepth file depth rest with
      | error fault => rfl
      | ok found =>
        cases ofChildren maxDepth file depth after with
        | error fault => rfl
        | ok others =>
          exact congrArg Except.ok (List.append_assoc first.toList found others).symm

/-! ## Outcomes -/

/-- What is named like a rule is read as one, if it is read. -/
theorem ofElement_ne_ok_none (h : e.name = kind.tag) :
    ofElement maxDepth file depth e ≠ .ok none := by
  by_cases hdepth : depth ≤ maxDepth
  · rw [ofElement_of_rule h hdepth, ne_eq, map_eq_ok_iff]
    rintro ⟨rule, -, hsome⟩
    cases hsome
  · rw [ofElement_of_tooDeep h (Int.not_le.mp hdepth)]
    intro hnone
    cases hnone

/-- An element is read as a rule exactly if its name is that of a kind of rule, it is not too deep,
and it is read as that kind. -/
theorem ofElement_eq_some_iff :
    ofElement maxDepth file depth e = .ok (some rule) ↔
      ∃ kind : RuleKind, e.name = kind.tag ∧ depth ≤ maxDepth ∧
        ofKind maxDepth file kind depth e = .ok rule := by
  constructor
  · intro h
    rcases RuleChild.name_cases e.name with ⟨kind, hkind⟩ | hfield | ⟨hrule, hfield⟩
    · by_cases hdepth : depth ≤ maxDepth
      · rw [ofElement_of_rule hkind hdepth, map_eq_ok_iff] at h
        obtain ⟨read, hread, hsome⟩ := h
        obtain rfl := Option.some.inj hsome
        exact ⟨kind, hkind, hdepth, hread⟩
      · rw [ofElement_of_tooDeep hkind (Int.not_le.mp hdepth)] at h
        cases h
    · rw [ofElement_of_field hfield] at h
      cases h
    · rw [ofElement_of_unknown hrule hfield] at h
      cases h
  · rintro ⟨kind, hkind, hdepth, hread⟩
    rw [ofElement_of_rule hkind hdepth, hread]
    rfl

/-- The children that are rules by their names are read one by one, and nothing else is found. -/
theorem map_found_of_ofChildren_eq_ok {children : List Element} {found : List Rule}
    (h : ofChildren maxDepth file depth children = .ok found) :
    found.map (fun rule => Except.ok (some rule)) =
      (children.filter (·.name ∈ ruleNames)).map (ofElement maxDepth file depth) := by
  induction children generalizing found with
  | nil =>
    obtain rfl : [] = found := Except.ok.inj h
    rfl
  | cons child rest ih =>
    simp only [ofChildren_cons, bind_eq_ok_iff, pure_eq_ok_iff] at h
    obtain ⟨first, hfirst, others, hothers, rfl⟩ := h
    rw [List.map_append, ih hothers]
    rcases RuleChild.name_cases child.name with ⟨kind, hkind⟩ | hfield | ⟨hrule, hfield⟩
    · have hrule : child.name ∈ ruleNames := hkind ▸ tag_mem_ruleNames kind
      cases first with
      | none => exact absurd hfirst (ofElement_ne_ok_none hkind)
      | some rule =>
        rw [List.filter_cons_of_pos (by simpa using hrule), List.map_cons, hfirst]
        rfl
    · have hrule : child.name ∉ ruleNames := fun h =>
        not_mem_ruleFieldNames_of_mem_ruleNames h hfield
      rw [ofElement_of_field hfield] at hfirst
      obtain rfl := Except.ok.inj hfirst
      rw [List.filter_cons_of_neg (by simpa using hrule)]
      rfl
    · rw [ofElement_of_unknown hrule hfield] at hfirst
      cases hfirst

/-- Nested rules are read from the children of an element, each from one of them. -/
theorem exists_child_of_mem_ofChildren {children : List Element} {found : List Rule}
    (h : ofChildren maxDepth file depth children = .ok found) :
    ∀ below ∈ found, ∃ child ∈ children,
      ofElement maxDepth file depth child = .ok (some below) := by
  intro below hbelow
  have hmem :=
    List.mem_map_of_mem (f := fun rule => Except.ok (ε := ImportError) (some rule)) hbelow
  rw [map_found_of_ofChildren_eq_ok h] at hmem
  obtain ⟨child, hchild, hread⟩ := List.mem_map.mp hmem
  exact ⟨child, List.mem_of_mem_filter hchild, hread⟩

/-- Children are refused as nested rules only for an error of one of them. -/
theorem exists_child_of_ofChildren_eq_error {children : List Element} {error : ImportError}
    (h : ofChildren maxDepth file depth children = .error error) :
    ∃ child ∈ children, ofElement maxDepth file depth child = .error error := by
  induction children with
  | nil => cases h
  | cons child rest ih =>
    rw [ofChildren_cons, bind_eq_error_iff] at h
    rcases h with hfirst | ⟨first, -, hrest⟩
    · exact ⟨child, List.mem_cons_self, hfirst⟩
    · rw [bind_eq_error_iff] at hrest
      rcases hrest with hrest | ⟨others, -, hpure⟩
      · obtain ⟨other, hmem, hother⟩ := ih hrest
        exact ⟨other, List.mem_cons_of_mem _ hmem, hother⟩
      · cases hpure

theorem mem_of_mem_keep {found : List Rule} {below : Rule} (h : below ∈ kind.keep found) :
    below ∈ found := by
  cases kind with
  | option | list => exact List.mem_of_getLast? (Option.mem_toList.mp h)
  | choice | tuple => exact h
  | preInstruction => cases h

/-- A rule of a kind is put together from the element it is read from, and each rule directly inside
it is read from a child of that element. -/
theorem exists_compose_of_ofKind_eq_ok (h : ofKind maxDepth file kind depth e = .ok rule) :
    ∃ found, rule = compose kind e found ∧ ∀ below ∈ rule.nested,
      ∃ child ∈ e.children, ofElement maxDepth file (depth + 1) child = .ok (some below) := by
  by_cases hpre : kind = .preInstruction
  · rw [hpre, ofKind_preInstruction] at h
    obtain rfl := Except.ok.inj h
    refine ⟨[], by rw [hpre], ?_⟩
    intro below hbelow
    cases hbelow
  · rw [ofKind_of_ne hpre, map_eq_ok_iff] at h
    obtain ⟨found, hfound, rfl⟩ := h
    refine ⟨found, rfl, ?_⟩
    intro below hbelow
    rw [nested_compose] at hbelow
    exact exists_child_of_mem_ofChildren hfound below (mem_of_mem_keep hbelow)

end Rule

end CutsceneCatalog
