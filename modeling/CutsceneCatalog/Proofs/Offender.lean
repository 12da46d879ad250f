import CutsceneCatalog.Definition
import CutsceneCatalog.Proofs.Vocabulary
import Mathlib.Data.List.Basic

/-!
# Which element a document is refused for

Reading a definition stops at the first thing that is wrong with the structure of its document.
This file says what that is without reading anything: `Element.visitsAll` lists the elements that
count, in document order and each with its depth, and `Visit.offence?` says of a single one what is
wrong with it.  Below the root stand the children of the root, at depth one; below a rule that holds
nested rules stand its children, one deeper; below everything else, fields and pre-instructions
included, nothing counts.

The main statement is `Definition.read_eq_error_iff_first_offence`: a document is refused exactly
when an offence is on the list, and then for the first one.  Nothing else is ever refused, and
whether a nested rule would have been kept makes no difference.

The two walks meet in `Rule.refusal_ofKind_and_ofChildren`, by induction along the reading of nested
rules; at the top level only the fold over the root's children remains (`refusal_foldlM`).
-/

namespace CutsceneCatalog

/-! ## The elements that count -/

/-- An element that counts, with its depth. -/
structure Visit where
  depth : Int
  element : Element

namespace Element

mutual

/-- The element, and below a rule that holds nested rules everything that counts in it. -/
def visits (depth : Int) : Element → List Visit
  | ⟨name, innerText, attributes, children⟩ =>
      ⟨depth, ⟨name, innerText, attributes, children⟩⟩ ::
        if name ∈ nestingRuleNames then visitsAll (depth + 1) children else []

/-- What counts in neighbors, one after the other. -/
def visitsAll (depth : Int) : List Element → List Visit
  | [] => []
  | e :: rest => visits depth e ++ visitsAll depth rest

end

end Element

/-- What is wrong with an element inside a rule: its name comes before its depth. -/
def Visit.ruleFault? (maxDepth : Int) (visit : Visit) : Option RuleFault :=
  if visit.element.name ∉ ruleNames ∧ visit.element.name ∉ ruleFieldNames then
    some (.notARule visit.element.name)
  else if visit.element.name ∈ ruleNames ∧ maxDepth < visit.depth then
    some (.tooDeep visit.depth maxDepth)
  else none

/-- What is wrong with an element that counts.  A child of the root is an offence by its name, a
child of a rule by its name too, and a rule by its depth. -/
def Visit.offence? (maxDepth : Int) (visit : Visit) : Option ImportCause :=
  if visit.depth = 1 ∧ visit.element.name ∉ entryNames then
    some (.elementNotAllowed visit.element.name)
  else if visit.depth ≠ 1 ∧ visit.element.name ∉ ruleNames ∧
      visit.element.name ∉ ruleFieldNames then
    some (.rule (.notARule visit.element.name))
  else if visit.element.name ∈ ruleNames ∧ maxDepth < visit.depth then
    some (.rule (.tooDeep visit.depth maxDepth))
  else none

namespace Element

theorem visits_eq (depth : Int) (e : Element) :
    e.visits depth = ⟨depth, e⟩ ::
      if e.name ∈ nestingRuleNames then visitsAll (depth + 1) e.children else [] := by
  cases e
  rfl

@[simp] theorem visitsAll_cons (depth : Int) (e : Element) (rest : List Element) :
    visitsAll depth (e :: rest) = e.visits depth ++ visitsAll depth rest := rfl

/-- Elements of other names than rules with nested rules count alone. -/
theorem visits_of_not_nesting (depth : Int) {e : Element} (h : e.name ∉ nestingRuleNames) :
    e.visits depth = [⟨depth, e⟩] := by
  rw [visits_eq, if_neg h]

theorem visits_of_nesting (depth : Int) {e : Element} (h : e.name ∈ nestingRuleNames) :
    e.visits depth = ⟨depth, e⟩ :: visitsAll (depth + 1) e.children := by
  rw [visits_eq, if_pos h]

mutual

/-- The walk only goes down. -/
theorem le_depth_of_mem_visits {depth : Int} {visit : Visit} :
    ∀ e : Element, visit ∈ e.visits depth → depth ≤ visit.depth
  | ⟨name, innerText, attributes, children⟩ => by
      intro h
      rw [visits_eq] at h
      rcases List.mem_cons.mp h with rfl | h
      · exact Int.le_refl depth
      · split at h
        · have := le_depth_of_mem_visitsAll children h
          omega
        · cases h

theorem le_depth_of_mem_visitsAll {depth : Int} {visit : Visit} :
    ∀ children : List Element, visit ∈ visitsAll depth children → depth ≤ visit.depth
  | [] => by
      intro h
      cases h
  | e :: rest => by
      intro h
      rcases List.mem_append.mp h with h | h
      · exact le_depth_of_mem_visits e h
      · exact le_depth_of_mem_visitsAll rest h

end

end Element

theorem findSome?_congr {α β : Type} {f g : α → Option β} {l : List α} (h : ∀ a ∈ l, f a = g a) :
    l.findSome? f = l.findSome? g := by
  induction l with
  | nil => rfl
  | cons a rest ih =>
    rw [List.findSome?_cons, List.findSome?_cons, h a List.mem_cons_self,
      ih fun b hb => h b (List.mem_cons_of_mem a hb)]

/-- Inside a rule, only the faults of rules are offences. -/
theorem Visit.offence?_of_depth_ne_one {maxDepth : Int} {visit : Visit} (h : visit.depth ≠ 1) :
    visit.offence? maxDepth = (visit.ruleFault? maxDepth).map .rule := by
  unfold offence? ruleFault?
  split_ifs <;> simp_all

/-- Below depth one, the first offence is the first fault of a rule. -/
theorem findSome?_offence_visitsAll (maxDepth : Int) {depth : Int} (h : 1 < depth)
    (children : List Element) :
    (Element.visitsAll depth children).findSome? (Visit.offence? maxDepth) =
      ((Element.visitsAll depth children).findSome? (Visit.ruleFault? maxDepth)).map .rule := by
  rw [List.map_findSome?]
  refine findSome?_congr fun visit hvisit => ?_
  have := Element.le_depth_of_mem_visitsAll children hvisit
  exact Visit.offence?_of_depth_ne_one (by omega)

/-! ## Refusals -/

variable {ε α β : Type}

/-- The error of a reading that was refused. -/
def refusal : Except ε α → Option ε
  | .ok _ => none
  | .error e => some e

@[simp] theorem refusal_ok (a : α) : refusal (.ok a : Except ε α) = none := rfl

@[simp] theorem refusal_error (e : ε) : refusal (.error e : Except ε α) = some e := rfl

theorem refusal_eq_none_iff {x : Except ε α} : refusal x = none ↔ ∃ a, x = .ok a := by
  cases x <;> simp

theorem refusal_eq_some_iff {x : Except ε α} {e : ε} : refusal x = some e ↔ x = .error e := by
  cases x <;> simp

@[simp] theorem refusal_bind_pure (x : Except ε α) (f : α → β) :
    refusal (do let a ← x; return f a) = refusal x := by
  cases x <;> rfl

/-- Two readings in a row are refused for the first fault of the first, else for the second's. -/
theorem refusal_bind_bind_pure {γ : Type} (x : Except ε α) (y : Except ε β) (f : α → β → γ) :
    refusal (do let a ← x; let b ← y; return f a b) = (refusal x).or (refusal y) := by
  cases x <;> cases y <;> rfl

/-- A fold whose steps are refused for reasons that do not depend on what was read before is
refused for the first of these reasons. -/
theorem refusal_foldlM {f : β → α → Except ε β} {g : α → Option ε}
    (h : ∀ b a, refusal (f b a) = g a) (l : List α) (b : β) :
    refusal (l.foldlM f b) = l.findSome? g := by
  induction l generalizing b with
  | nil => rfl
  | cons a rest ih =>
    rw [List.foldlM_cons, List.findSome?_cons, ← h b a]
    cases hstep : f b a with
    | error e => rfl
    | ok next => exact ih next

/-! ## Reading rules -/

namespace Rule

variable {maxDepth : Int} {file : Option String}

/-- A name that is no rule's and no field's is the fault of its own visit. -/
theorem findSome?_visits_of_unknown (depth : Int) {e : Element}
    (h : RuleChild.ofTag? e.name = none) :
    (e.visits depth).findSome? (Visit.ruleFault? maxDepth) = some (.notARule e.name) := by
  rw [RuleChild.ofTag?_eq_none_iff] at h
  have hnest : e.name ∉ nestingRuleNames := fun hmem => h.1 (mem_ruleNames_of_mem_nesting hmem)
  rw [Element.visits_of_not_nesting depth hnest]
  simp [Visit.ruleFault?, h.1, h.2]

/-- A field of a rule is no fault, and nothing counts in it. -/
theorem findSome?_visits_of_field (depth : Int) {e : Element}
    (h : RuleChild.ofTag? e.name = some .field) :
    (e.visits depth).findSome? (Visit.ruleFault? maxDepth) = none := by
  have hrule : e.name ∉ ruleNames := by
    rw [mem_ruleNames_iff]
    rintro ⟨kind, hkind⟩
    rw [← RuleChild.ofTag?_eq_rule_iff, h] at hkind
    cases hkind
  have hnest : e.name ∉ nestingRuleNames := fun hmem => hrule (mem_ruleNames_of_mem_nesting hmem)
  rw [RuleChild.ofTag?_eq_field_iff] at h
  rw [Element.visits_of_not_nesting depth hnest]
  simp [Visit.ruleFault?, hrule, h]

/-- A rule that is too deep is the fault of its own visit. -/
theorem findSome?_visits_of_too_deep {depth : Int} {e : Element} {kind : RuleKind}
    (h : RuleChild.ofTag? e.name = some (.rule kind)) (hdepth : maxDepth < depth) :
    (e.visits depth).findSome? (Visit.ruleFault? maxDepth) = some (.tooDeep depth maxDepth) := by
  have hrule : e.name ∈ ruleNames := by
    rw [(RuleChild.ofTag?_eq_rule_iff e.name kind).mp h]
    exact tag_mem_ruleNames kind
  rw [Element.visits_eq]
  simp [Visit.ruleFault?, hrule, hdepth]

/-- The faults of a rule that is not too deep are those inside it. -/
theorem findSome?_visits_of_rule {depth : Int} {e : Element} {kind : RuleKind}
    (h : RuleChild.ofTag? e.name = some (.rule kind)) (hdepth : ¬ maxDepth < depth) :
    (e.visits depth).findSome? (Visit.ruleFault? maxDepth) =
      if kind = .preInstruction then none
      else (Element.visitsAll (depth + 1) e.children).findSome? (Visit.ruleFault? maxDepth) := by
  rw [RuleChild.ofTag?_eq_rule_iff] at h
  have hrule : e.name ∈ ruleNames := h ▸ tag_mem_ruleNames kind
  have hself : Visit.ruleFault? maxDepth ⟨depth, e⟩ = none := by
    simp [Visit.ruleFault?, hrule, hdepth]
  rw [Element.visits_eq, List.findSome?_cons, hself, h]
  by_cases hkind : kind = .preInstruction
  · rw [if_neg (by simpa [tag_mem_nestingRuleNames_iff] using hkind), if_pos hkind]
    rfl
  · rw [if_pos ((tag_mem_nestingRuleNames_iff kind).mpr hkind), if_neg hkind]

/-- The error about a fault of a rule in a file. -/
def errorIn (file : Option String) (fault : RuleFault) : ImportError := ⟨.rule fault, file⟩

/-- Reading is refused for the first fault of the walk, and the error is about the file handed down:
an element read as a rule, for the first one inside it, unless it is a pre-instruction; the nested
rules of a rule, for the first one among them.  The induction follows the reading. -/
theorem refusal_ofKind_and_ofChildren :
    (∀ kind depth e, refusal (ofKind maxDepth file kind depth e) =
      (if kind = .preInstruction then none
        else (Element.visitsAll (depth + 1) e.children).findSome?
          (Visit.ruleFault? maxDepth)).map (errorIn file)) ∧
    ∀ depth children, refusal (ofChildren maxDepth file depth children) =
      ((Element.visitsAll depth children).findSome? (Visit.ruleFault? maxDepth)).map
        (errorIn file) := by
  apply ofKind.mutual_induct maxDepth
  case case1 =>
    intro depth name innerText attributes children
    simp [ofKind]
  case case2 =>
    intro depth name innerText attributes children kind hkind ih
    rw [if_neg hkind, ← ih, ofKind]
    · exact refusal_bind_pure _ _
    · exact hkind
  case case3 =>
    intro depth
    rfl
  case case4 =>
    intro depth child rest hchild
    rw [ofChildren, hchild, Element.visitsAll_cons, List.findSome?_append,
      findSome?_visits_of_unknown depth hchild]
    rfl
  case case5 =>
    intro depth child rest hchild ih
    rw [ofChildren, hchild, Element.visitsAll_cons, List.findSome?_append,
      findSome?_visits_of_field depth hchild, Option.none_or]
    exact ih
  case case6 =>
    intro depth child rest kind hchild hdepth
    rw [ofChildren, hchild, Element.visitsAll_cons, List.findSome?_append,
      findSome?_visits_of_too_deep hchild hdepth]
    simp [hdepth, errorIn]
  case case7 =>
    intro depth child rest kind hchild hdepth ihchild ihrest
    rw [ofChildren, hchild, Element.visitsAll_cons, List.findSome?_append,
      findSome?_visits_of_rule hchild hdepth, Option.map_or, ← ihchild, ← ihrest]
    simp only [if_neg hdepth]
    exact refusal_bind_bind_pure _ _ _

/-- An element read as a rule is refused for the first fault that its visits have. -/
theorem refusal_ofElement (depth : Int) (e : Element) :
    refusal (ofElement maxDepth file depth e) =
      ((e.visits depth).findSome? (Visit.ruleFault? maxDepth)).map (errorIn file) := by
  unfold ofElement
  cases h : RuleChild.ofTag? e.name with
  | none =>
    rw [findSome?_visits_of_unknown depth h]
    rfl
  | some child =>
    cases child with
    | field =>
      rw [findSome?_visits_of_field depth h]
      rfl
    | rule kind =>
      by_cases hdepth : maxDepth < depth
      · rw [findSome?_visits_of_too_deep h hdepth]
        simp [hdepth, errorIn]
      · rw [findSome?_visits_of_rule h hdepth, ← refusal_ofKind_and_ofChildren.1 kind depth e]
        simp only [if_neg hdepth]
        exact refusal_bind_pure _ _

/-- An option keeps its last nested rule only, but an unknown child of another one still counts. -/
example :
    refusal (ofElement 2 (some "f") 1 ⟨"optionRule", "", [],
      [⟨"listRule", "", [], [⟨"target", "", [], []⟩]⟩, ⟨"preInstruction", "", [], []⟩]⟩) =
      some ⟨.rule (.notARule "target"), some "f"⟩ := by
  rfl

end Rule

/-! ## Reading a definition -/

namespace Definition

/-- A child of the root with an unknown name is the offence of its own visit. -/
theorem findSome?_visits_of_not_allowed (maxDepth : Int) {e : Element}
    (h : Entry.ofTag? e.name = none) :
    (e.visits 1).findSome? (Visit.offence? maxDepth) = some (.elementNotAllowed e.name) := by
  rw [Entry.ofTag?_eq_none_iff] at h
  rw [Element.visits_eq]
  simp [Visit.offence?, h]

/-- What is no rule is read without looking inside. -/
theorem findSome?_visits_of_plain {maxDepth : Int} {e : Element} {entry : Entry}
    (h : Entry.ofTag? e.name = some entry) (hplain : ∀ kind, entry ≠ .rule kind) :
    (e.visits 1).findSome? (Visit.offence? maxDepth) = none := by
  have hname : e.name ∈ entryNames :=
    Entry.mem_entryNames_of_mem_tags ((Entry.ofTag?_eq_some_iff e.name entry).mp h)
  have hrule : e.name ∉ ruleNames := by
    intro hmem
    obtain ⟨kind, hkind⟩ := Entry.exists_eq_rule_of_mem_ruleNames h hmem
    exact hplain kind hkind
  have hnest : e.name ∉ nestingRuleNames := fun hmem => hrule (mem_ruleNames_of_mem_nesting hmem)
  rw [Element.visits_of_not_nesting 1 hnest]
  simp [Visit.offence?, hname, hrule]

/-- A rule below the root is refused for the offences inside it: its own depth is never too
great. -/
theorem findSome?_visits_of_rule {maxDepth : Int} (hmax : 1 ≤ maxDepth) {e : Element}
    {kind : RuleKind} (h : Entry.ofTag? e.name = some (.rule kind)) :
    (e.visits 1).findSome? (Visit.offence? maxDepth) =
      ((e.visits 1).findSome? (Visit.ruleFault? maxDepth)).map .rule := by
  obtain ⟨hname, hnest⟩ := (Entry.ofTag?_eq_rule_iff e.name kind).mp h
  have hrule : e.name ∈ ruleNames := mem_ruleNames_of_mem_nesting hnest
  have hentry : e.name ∈ entryNames :=
    Entry.mem_entryNames_of_mem_tags ((Entry.ofTag?_eq_some_iff e.name _).mp h)
  have hself : Visit.offence? maxDepth ⟨1, e⟩ = none := by
    simp [Visit.offence?, hentry, hrule]
    omega
  have hfault : Visit.ruleFault? maxDepth ⟨1, e⟩ = none := by
    simp [Visit.ruleFault?, hrule]
    omega
  rw [Element.visits_of_nesting 1 hnest, List.findSome?_cons, List.findSome?_cons, hself, hfault,
    findSome?_offence_visitsAll maxDepth (by decide)]

/-- Taking a child of the root into a definition is refused for the first offence among its visits,
whatever has been read before. -/
theorem refusal_extend (around : Surroundings) (file : Option String) (definition : Definition)
    (e : Element) :
    refusal (extend around file definition e) =
      ((e.visits 1).findSome? (Visit.offence? around.settings.maxRuleDepth)).map
        fun cause => ⟨cause, file⟩ := by
  cases h : Entry.ofTag? e.name with
  | none => simp [extend, h, findSome?_visits_of_not_allowed _ h]
  | some entry =>
    cases entry with
    | rule kind =>
      rw [findSome?_visits_of_rule around.settings.one_le_depth h, Option.map_map]
      change _ = Option.map (Rule.errorIn file) _
      rw [← Rule.refusal_ofElement]
      simp only [extend, h]
      cases Rule.ofElement around.settings.maxRuleDepth file 1 e with
      | error error => rfl
      | ok rule => cases rule <;> rfl
    | _ => simp [extend, h, findSome?_visits_of_plain h]

theorem findSome?_visitsAll (depth : Int) (p : Visit → Option ImportCause)
    (children : List Element) :
    (Element.visitsAll depth children).findSome? p =
      children.findSome? fun e => (e.visits depth).findSome? p := by
  induction children with
  | nil => rfl
  | cons e rest ih =>
    rw [Element.visitsAll_cons, List.findSome?_append, List.findSome?_cons, ih]
    cases (e.visits depth).findSome? p <;> rfl

/-- A document is refused for the first offence in it, and the error is about its file. -/
theorem refusal_read (around : Surroundings) (file : Option String) (root : Element) :
    refusal (read around file root) =
      ((Element.visitsAll 1 root.children).findSome?
        (Visit.offence? around.settings.maxRuleDepth)).map fun cause => ⟨cause, file⟩ := by
  rw [read, refusal_foldlM (refusal_extend around file), findSome?_visitsAll, List.map_findSome?]
  rfl

theorem read_eq_error_iff (around : Surroundings) (file : Option String) (root : Element)
    (error : ImportError) :
    read around file root = .error error ↔
      ∃ cause, (Element.visitsAll 1 root.children).findSome?
        (Visit.offence? around.settings.maxRuleDepth) = some cause ∧ error = ⟨cause, file⟩ := by
  rw [← refusal_eq_some_iff, refusal_read, Option.map_eq_some_iff]
  simp only [eq_comm]

end Definition

end CutsceneCatalog
