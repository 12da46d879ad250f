import CutsceneCatalog.Proofs.DecimalText
import CutsceneCatalog.Proofs.NestedRules
import CutsceneCatalog.Proofs.Outcome
import CutsceneCatalog.Proofs.RuleReading
import Mathlib.Data.List.Forall2
import Mathlib.Data.List.Nodup

/-!
# Rules written as elements

Every rule can be written as an element, and every element that writes it (`Rule.Renders`) is read
as that rule again, unless it stands too deep.  What writing leaves open does not matter: in what
order the fields stand, and where among the nested rules; what a field has inside besides its text;
and which other attributes there are.

The reading is settled level by level.  On one level, `Rule.compose_of_renders` puts the rule
together from its fields, of which each stands there once (`Renders.exists_find?`), and
`Rule.ofChildren_of_interleaves` reads its nested rules past the fields.  `Rule.induct` does the
rest in `Rule.readsBack_of_renders`.
-/

namespace CutsceneCatalog

/-- A list that holds the elements of two others, those of each in their order. -/
inductive Interleaves {α : Type} : List α → List α → List α → Prop
  | nil : Interleaves [] [] []
  | left {a : α} {as bs cs : List α} : Interleaves as bs cs → Interleaves (a :: as) bs (a :: cs)
  | right {b : α} {as bs cs : List α} : Interleaves as bs cs → Interleaves as (b :: bs) (b :: cs)

namespace Interleaves

variable {α : Type} {as bs cs : List α}

theorem mem_iff (h : Interleaves as bs cs) {a : α} : a ∈ cs ↔ a ∈ as ∨ a ∈ bs := by
  induction h with
  | nil => simp
  | left _ ih => simp only [List.mem_cons, ih, or_assoc]
  | right _ ih => simp only [List.mem_cons, ih, or_left_comm]

theorem append (as bs : List α) : Interleaves as bs (as ++ bs) := by
  induction as with
  | nil =>
    induction bs with
    | nil => exact .nil
    | cons b bs ih => exact .right ih
  | cons a as ih => exact .left ih

end Interleaves

namespace Rule

/-- The fields of a rule besides its identifier, each with its name and its text. -/
def fields (rule : Rule) : List (String × String) :=
  ("displayName", rule.heading.displayName) :: ("description", rule.heading.description) ::
    match rule with
    | option _ _ startEnabled => [("startEnabled", toString startEnabled)]
    | choice _ _ startSelected => [("startSelected", toString startSelected)]
    | tuple _ _ previewSeparator => [("previewSeparator", previewSeparator)]
    | list _ _ addButtonText previewSeparator =>
        [("addButtonText", addButtonText), ("previewSeparator", previewSeparator)]
    | preInstruction _ opcode => [("opcode", opcode)]

/-- The number of a choice fits 32 signed bits. -/
def SelectionInRange : Rule → Prop
  | choice _ _ startSelected => int32Min ≤ startSelected ∧ startSelected ≤ int32Max
  | _ => True

/-- An element that writes a rule: its name says the kind, its attribute `id` identifies the rule,
and its children are the fields, in any order, and among them the nested rules in theirs. -/
inductive Renders : Rule → Element → Prop
  | intro {rule : Rule} {e : Element} {own inside : List Element}
      (named : e.name = rule.kind.tag)
      (identified : e.attribute? "id" = some rule.heading.id)
      (mixed : Interleaves own inside e.children)
      (written : (own.map fun field => (field.name, field.innerText)).Perm rule.fields)
      (nested : List.Forall₂ Renders rule.nested inside) : Renders rule e

/-! ## Writing a rule -/

/-- The element that writes a rule with its fields first and nothing besides. -/
def render : Rule → Element :=
  fold fun rule inside =>
    let own := rule.fields.map fun (name, text) => (⟨name, text, [], []⟩ : Element)
    ⟨rule.kind.tag, String.join ((own ++ inside).map Element.innerText), [("id", rule.heading.id)],
      own ++ inside⟩

theorem renders_render (rule : Rule) : Renders rule rule.render := by
  induction rule using induct with
  | step rule ih =>
    unfold render
    rw [fold_eq]
    refine .intro rfl rfl (Interleaves.append _ _) ?_ ?_
    · rw [List.map_map]
      exact .of_eq (List.map_id _)
    · exact List.forall₂_map_right_iff.mpr (List.forall₂_same.mpr ih)

/-! ## One level of a written rule -/

theorem map_fst_fields (rule : Rule) : rule.fields.map Prod.fst = rule.kind.fieldNames := by
  cases rule <;> rfl

theorem mem_fieldNames_of_mem_fields {rule : Rule} {field : String × String}
    (h : field ∈ rule.fields) : field.1 ∈ rule.kind.fieldNames :=
  map_fst_fields rule ▸ List.mem_map_of_mem h

theorem text_unique_of_mem_fields {rule : Rule} {name text other : String}
    (h : (name, text) ∈ rule.fields) (h' : (name, other) ∈ rule.fields) : other = text := by
  have hnodup : (rule.fields.map Prod.fst).Nodup := by
    rw [map_fst_fields]
    exact rule.kind.nodup_fieldNames
  exact congrArg Prod.snd (List.inj_on_of_nodup_map hnodup h' h rfl)

theorem Renders.name_eq {rule : Rule} {e : Element} (h : Renders rule e) :
    e.name = rule.kind.tag := by
  cases h
  assumption

/-- A field is found by its name: the other fields have other names, and nested rules are named like
rules. -/
theorem Renders.exists_find? {rule : Rule} {e : Element} (h : Renders rule e) {name text : String}
    (hfield : (name, text) ∈ rule.fields) :
    ∃ field, e.find? name = some field ∧ field.innerText = text := by
  obtain @⟨_, _, own, inside, -, -, mixed, written, nested⟩ := h
  have hown : ∀ child ∈ own, (child.name, child.innerText) ∈ rule.fields := fun child hchild =>
    written.mem_iff.mp (List.mem_map_of_mem hchild)
  obtain ⟨field, hmem, hname⟩ := List.mem_map.mp (written.mem_iff.mpr hfield)
  have hsome : (e.find? name).isSome := by
    rw [Element.find?, List.find?_isSome]
    exact ⟨field, mixed.mem_iff.mpr (.inl hmem), beq_iff_eq.mpr (congrArg Prod.fst hname)⟩
  obtain ⟨found, hfound⟩ := Option.isSome_iff_exists.mp hsome
  have hfirst := List.find?_some hfound
  have hnamed : found.name = name := beq_iff_eq.mp hfirst
  refine ⟨found, hfound, ?_⟩
  rcases mixed.mem_iff.mp (List.mem_of_find?_eq_some hfound) with hchild | hchild
  · exact text_unique_of_mem_fields hfield (hnamed ▸ hown found hchild)
  · obtain ⟨below, -, hbelow⟩ := exists_partner_of_forall₂ nested found hchild
    have hrule : name ∈ ruleNames := hnamed ▸ hbelow.name_eq ▸ tag_mem_ruleNames below.kind
    exact absurd hrule (RuleKind.not_mem_ruleNames_of_mem_fieldNames
      (mem_fieldNames_of_mem_fields hfield))

/-- A field of a written rule is read as the value that its text stands for. -/
theorem Renders.field_eq {rule : Rule} {e : Element} (h : Renders rule e) {name text : String}
    (hfield : (name, text) ∈ rule.fields) {α : Type} {read : String → Except ScalarError α}
    {value : α} (hread : read text = .ok value) (fallback : α) :
    e.field name read fallback = value := by
  obtain ⟨field, hfind, rfl⟩ := h.exists_find? hfield
  simp only [Element.field, hfind, hread]

theorem Renders.heading_eq {rule : Rule} {e : Element} (h : Renders rule e) :
    Heading.ofElement e = rule.heading := by
  have hid : e.idOr "" = rule.heading.id := by
    obtain ⟨-, identified, -, -, -⟩ := h
    rw [Element.idOr, identified]
    rfl
  have hdisplayName : e.textField "displayName" "" = rule.heading.displayName :=
    h.field_eq (List.mem_cons_self) rfl ""
  have hdescription : e.textField "description" "" = rule.heading.description :=
    h.field_eq (List.mem_cons_of_mem _ List.mem_cons_self) rfl ""
  rw [Heading.ofElement, hid, hdisplayName, hdescription]

theorem compose_of_renders {rule : Rule} {e : Element} (h : Renders rule e)
    (hrange : rule.SelectionInRange) : compose rule.kind e rule.nested = rule := by
  have hheading := h.heading_eq
  cases rule with
  | option heading target startEnabled =>
    have hstart : e.boolField "startEnabled" false = startEnabled :=
      h.field_eq (by simp [fields]) (boolOfText_toString startEnabled) false
    cases target <;> simp [compose, kind, nested, hheading, hstart, Rule.heading]
  | choice heading targets startSelected =>
    have hstart : e.intField "startSelected" 0 = startSelected :=
      h.field_eq (by simp [fields]) (intOfText_toString hrange) 0
    simp [compose, kind, nested, hheading, hstart, Rule.heading]
  | tuple heading targets previewSeparator =>
    have hseparator : e.textField "previewSeparator" "" = previewSeparator :=
      h.field_eq (by simp [fields]) rfl ""
    simp [compose, kind, nested, hheading, hseparator, Rule.heading]
  | list heading target addButtonText previewSeparator =>
    have hbutton : e.textField "addButtonText" "" = addButtonText :=
      h.field_eq (by simp [fields]) rfl ""
    have hseparator : e.textField "previewSeparator" "" = previewSeparator :=
      h.field_eq (by simp [fields]) rfl ""
    cases target <;> simp [compose, kind, nested, hheading, hbutton, hseparator, Rule.heading]
  | preInstruction heading opcode =>
    have hopcode : e.textField "opcode" "" = opcode :=
      h.field_eq (by simp [fields]) rfl ""
    simp [compose, kind, hheading, hopcode, Rule.heading]

/-! ## Reading a written rule -/

/-- An element is read as the rule wherever no level of it is too deep, and elsewhere it is refused
for the first rule that is. -/
def ReadsBack (rule : Rule) (e : Element) : Prop :=
  ∀ (maxDepth : Int) (file : Option String) (depth : Int), ofElement maxDepth file depth e =
    if rule.Fits maxDepth depth then .ok (some rule)
    else .error ⟨.rule (.tooDeep (max depth (maxDepth + 1)) maxDepth), file⟩

/-- Among the children of a written rule the fields are passed over, and the nested rules decide. -/
theorem ofChildren_of_interleaves {own inside children : List Element} {rules : List Rule}
    (hmixed : Interleaves own inside children) (hown : ∀ child ∈ own, child.name ∈ ruleFieldNames)
    (hinside : List.Forall₂ ReadsBack rules inside) (maxDepth : Int)
    (file : Option String) (depth : Int) :
    ofChildren maxDepth file depth children =
      if ∀ rule ∈ rules, rule.Fits maxDepth depth then .ok rules
      else .error ⟨.rule (.tooDeep (max depth (maxDepth + 1)) maxDepth), file⟩ := by
  induction hmixed generalizing rules with
  | nil =>
    obtain rfl := List.forall₂_nil_right_iff.mp hinside
    rfl
  | left _ ih =>
    obtain ⟨hfield, hown⟩ := List.forall_mem_cons.mp hown
    rw [ofChildren_cons_of_field hfield]
    exact ih hown hinside
  | right _ ih =>
    obtain ⟨rule, rest, hrule, hrest, rfl⟩ := List.forall₂_cons_right_iff.mp hinside
    rw [ofChildren_cons, hrule maxDepth file depth, ih hown hrest]
    simp only [List.forall_mem_cons]
    by_cases hfits : rule.Fits maxDepth depth
    · by_cases hall : ∀ rule ∈ rest, rule.Fits maxDepth depth
      · rw [if_pos hfits, if_pos hall, if_pos ⟨hfits, hall⟩]
        rfl
      · have hsome : ¬(rule.Fits maxDepth depth ∧ ∀ rule ∈ rest, rule.Fits maxDepth depth) :=
          fun h => hall h.2
        rw [if_pos hfits, if_neg hall, if_neg hsome]
        rfl
    · have hsome : ¬(rule.Fits maxDepth depth ∧ ∀ rule ∈ rest, rule.Fits maxDepth depth) :=
        fun h => hfits h.1
      rw [if_neg hfits, if_neg hsome]
      rfl

/-- Inside a written rule, the nested rules decide; a pre-instruction has none. -/
theorem ofKind_of_interleaves {rule : Rule} {e : Element} {own inside : List Element}
    (hcompose : compose rule.kind e rule.nested = rule) (hmixed : Interleaves own inside e.children)
    (hwritten : (own.map fun field => (field.name, field.innerText)).Perm rule.fields)
    (hinside : List.Forall₂ ReadsBack rule.nested inside) (maxDepth : Int)
    (file : Option String) (depth : Int) :
    ofKind maxDepth file rule.kind depth e =
      if ∀ below ∈ rule.nested, below.Fits maxDepth (depth + 1) then .ok rule
      else .error ⟨.rule (.tooDeep (max (depth + 1) (maxDepth + 1)) maxDepth), file⟩ := by
  by_cases hkind : rule.kind = .preInstruction
  · have hnested := nested_of_preInstruction hkind
    have hall : ∀ below ∈ rule.nested, below.Fits maxDepth (depth + 1) := by simp [hnested]
    rw [hkind, hnested] at hcompose
    rw [if_pos hall, hkind, ofKind_preInstruction, hcompose]
  · have hown : ∀ child ∈ own, child.name ∈ ruleFieldNames := by
      intro child hchild
      have hfield : (child.name, child.innerText) ∈ rule.fields :=
        hwritten.mem_iff.mp (List.mem_map_of_mem hchild)
      exact RuleKind.mem_ruleFieldNames_of_mem_fieldNames hkind
        (mem_fieldNames_of_mem_fields hfield)
    rw [ofKind_of_ne hkind, ofChildren_of_interleaves hmixed hown hinside]
    split
    · exact congrArg Except.ok hcompose
    · rfl

theorem readsBack_of_renders {rule : Rule} {e : Element} (hrange : rule.Everywhere SelectionInRange)
    (h : Renders rule e) : ReadsBack rule e := by
  induction rule using induct generalizing e with
  | step rule ih =>
    obtain ⟨hself, hbelow⟩ := everywhere_iff.mp hrange
    have hcompose := compose_of_renders h hself
    obtain @⟨_, _, own, inside, named, -, mixed, written, nested⟩ := h
    have hinside : List.Forall₂ ReadsBack rule.nested inside :=
      forall₂_imp_of_mem nested fun below hmem _ hchild => ih below hmem (hbelow below hmem) hchild
    intro maxDepth file depth
    by_cases hdepth : depth ≤ maxDepth
    · rw [ofElement_of_rule named hdepth, ofKind_of_interleaves hcompose mixed written hinside]
      by_cases hall : ∀ below ∈ rule.nested, below.Fits maxDepth (depth + 1)
      · rw [if_pos hall, if_pos (fits_iff.mpr ⟨hdepth, hall⟩)]
        rfl
      · -- The first nested rule that is too deep stands right below the greatest depth.
        have hfirst : max (depth + 1) (maxDepth + 1) = max depth (maxDepth + 1) := by omega
        rw [if_neg hall, if_neg fun h => hall (fits_iff.mp h).2, hfirst]
        rfl
    · have hself : max depth (maxDepth + 1) = depth := by omega
      rw [ofElement_of_tooDeep named (Int.not_le.mp hdepth),
        if_neg fun h => hdepth (fits_iff.mp h).1, hself]

theorem ReadsBack.unique {rule other : Rule} {e : Element} (h : ReadsBack rule e)
    (h' : ReadsBack other e) : other = rule := by
  -- At a depth that is great enough for both, the element is read as either.
  have hrule : rule.Fits (rule.height + other.height) 1 := by
    unfold Fits
    omega
  have hother : other.Fits (rule.height + other.height) 1 := by
    unfold Fits
    omega
  have hread := h (rule.height + other.height) none 1
  rw [h', if_pos hrule, if_pos hother] at hread
  exact Option.some.inj (Except.ok.inj hread)

/-- Every rule whose choices have numbers of 32 bits can be written, and an element that writes it
is read as that rule again, or refused as too deep; so it writes no other rule. -/
theorem ofElement_of_renders (rule : Rule) (hrange : rule.Everywhere SelectionInRange) :
    (∃ e, Renders rule e) ∧
      ∀ e, Renders rule e →
        (∀ (maxDepth : Int) (file : Option String) (depth : Int), ofElement maxDepth file depth e =
          if depth + rule.height - 1 ≤ maxDepth then .ok (some rule)
          else .error ⟨.rule (.tooDeep (max depth (maxDepth + 1)) maxDepth), file⟩) ∧
        ∀ other : Rule, other.Everywhere SelectionInRange → Renders other e → other = rule := by
  refine ⟨⟨rule.render, renders_render rule⟩, ?_⟩
  intro e he
  have hread : ReadsBack rule e := readsBack_of_renders hrange he
  refine ⟨hread, ?_⟩
  intro other hother hsame
  exact hread.unique (readsBack_of_renders hother hsame)

/-- An option around a choice that holds a pre-instruction. -/
def layered : Rule :=
  option ⟨"o", "Option", ""⟩
    (some (choice ⟨"c", "", "One of"⟩ [preInstruction ⟨"p", "", ""⟩ "Wait"] (-12))) true

/-- The element that writes `layered` with every field behind the nested rule. -/
def layeredElement : Element :=
  let field (name text : String) : Element := ⟨name, text, [], []⟩
  ⟨"optionRule", "", [("id", "o")],
    [⟨"choiceRule", "", [("color", "red"), ("id", "c")],
      [⟨"preInstruction", "", [("id", "p")],
        [field "opcode" "Wait", field "description" "", field "displayName" ""]⟩,
        field "startSelected" "-12", field "description" "One of", field "displayName" ""]⟩,
      field "startEnabled" "true", field "description" "", field "displayName" "Option"]⟩

theorem ofElement_layeredElement :
    layered.Everywhere SelectionInRange ∧ Renders layered layeredElement ∧
      ofElement 3 none 1 layeredElement = .ok (some layered) ∧
      ofElement 2 (some "f") 1 layeredElement = .error ⟨.rule (.tooDeep 3 2), some "f"⟩ := by
  have hrange : layered.Everywhere SelectionInRange := by
    simp [layered, Everywhere, fold, foldTarget, foldTargets, SelectionInRange, int32Min, int32Max]
  have hrenders : Renders layered layeredElement := by
    refine .intro rfl rfl (.right (.left (.left (.left .nil)))) (by decide) (.cons ?_ .nil)
    refine .intro rfl rfl (.right (.left (.left (.left .nil)))) (by decide) (.cons ?_ .nil)
    exact .intro rfl rfl (.left (.left (.left .nil))) (by decide) .nil
  have hread := ((ofElement_of_renders layered hrange).2 layeredElement hrenders).1
  exact ⟨hrange, hrenders, hread 3 none 1, hread 2 (some "f") 1⟩

end Rule

end CutsceneCatalog
