import CutsceneCatalog.Proofs.RuleReading
import Mathlib.Logic.Relation

/-!
# Edits that no rule shows

Much of a rule's element is not read: fields behind the first one of their name and fields of other
kinds of rules, all nested rules of an option or a list except the last, everything in a
pre-instruction but three fields, all attributes but one, and the text of the rule itself.
`Rule.Edit` lists what may be changed there.  One restriction is not about what is read but about
what is refused: a nested rule that is put in the place of another has to be a rule in its own
right, although it is dropped again.

`Rule.ofElement_eq_ok_of_edits` is the main statement: whatever number of such edits is made, to the
element or to rules anywhere below it, the element is read as the same rule.  A single edit leaves
the fields that count and the nested rules that are kept as they are (`ofElement_eq_ok_of_edit`),
and from there the outcome is passed on to the rules around it (`ofElement_eq_ok_of_editInside`).
-/

namespace CutsceneCatalog

namespace Rule

/-- Edits of a rule's element, at the given depth, that the rule does not show. -/
inductive Edit (maxDepth : Int) (file : Option String) (depth : Int) (e : Element) : Element → Prop
  /-- A field is put in somewhere behind the first one of its name. -/
  | repeatField {before after : List Element} {field : Element} (rule : e.name ∈ ruleNames)
      (children : e.children = before ++ after) (named : field.name ∈ ruleFieldNames)
      (first : ∃ child ∈ before, child.name = field.name) :
      Edit maxDepth file depth e { e with children := before ++ field :: after }
  /-- A field is put in that rules of this kind do not have. -/
  | idleField {kind : RuleKind} {before after : List Element} {field : Element}
      (rule : e.name = kind.tag) (children : e.children = before ++ after)
      (named : field.name ∈ ruleFieldNames) (idle : field.name ∉ kind.fieldNames) :
      Edit maxDepth file depth e { e with children := before ++ field :: after }
  /-- A nested rule of an option or a list is taken out, but not the last one. -/
  | dropNested {before after : List Element} {dropped : Element}
      (rule : e.name = "optionRule" ∨ e.name = "listRule")
      (children : e.children = before ++ dropped :: after) (nested : dropped.name ∈ ruleNames)
      (later : ∃ child ∈ after, child.name ∈ ruleNames) :
      Edit maxDepth file depth e { e with children := before ++ after }
  /-- Another rule takes the place of a nested rule of an option or a list, but not of the last
  one. -/
  | replaceNested {before after : List Element} {dropped replacement : Element} {other : Rule}
      (rule : e.name = "optionRule" ∨ e.name = "listRule")
      (children : e.children = before ++ dropped :: after) (nested : dropped.name ∈ ruleNames)
      (later : ∃ child ∈ after, child.name ∈ ruleNames)
      (reads : ofElement maxDepth file (depth + 1) replacement = .ok (some other)) :
      Edit maxDepth file depth e { e with children := before ++ replacement :: after }
  /-- A pre-instruction gets other children, with the same three fields in front of their likes. -/
  | preInstruction (rule : e.name = "preInstruction") (children : List Element)
      (firsts : ∀ name ∈ ["displayName", "description", "opcode"],
        children.find? (fun child => child.name == name) = e.find? name) :
      Edit maxDepth file depth e { e with children := children }
  /-- The attributes are changed, except for the identifier. -/
  | attributes (rule : e.name ∈ ruleNames) (attributes : List (String × String))
      (identified : attributes.lookup "id" = e.attribute? "id") :
      Edit maxDepth file depth e { e with attributes := attributes }
  /-- The text of the rule itself is changed. -/
  | text (rule : e.name ∈ ruleNames) (text : String) :
      Edit maxDepth file depth e { e with innerText := text }

/-- An edit of an element at the given depth, or of a rule that the reading reaches below it. -/
inductive EditInside (maxDepth : Int) (file : Option String) : Int → Element → Element → Prop
  | here {depth : Int} {e edited : Element} (edit : Edit maxDepth file depth e edited) :
      EditInside maxDepth file depth e edited
  | inside {depth : Int} {e child edited : Element} {before after : List Element}
      (rule : e.name ∈ nestingRuleNames) (children : e.children = before ++ child :: after)
      (edit : EditInside maxDepth file (depth + 1) child edited) :
      EditInside maxDepth file depth e { e with children := before ++ edited :: after }

variable {maxDepth depth : Int} {file : Option String} {e edited : Element} {kind : RuleKind}
  {read : Option Rule}

/-! ## One level -/

/-- A child that is a rule is none of the fields of the rule around it. -/
theorem find?_splice_of_rule {before after : List Element} {child : Element} {name : String}
    (hchild : child.name ∈ ruleNames) (hname : name ∈ kind.fieldNames) :
    (before ++ child :: after).find? (fun child => child.name == name) =
      (before ++ after).find? (fun child => child.name == name) :=
  Element.find?_splice fun hsame =>
    absurd (hsame ▸ hchild) (RuleKind.not_mem_ruleNames_of_mem_fieldNames hname)

theorem compose_eq_of_keep_eq {found others : List Rule} (h : kind.keep others = kind.keep found) :
    compose kind e others = compose kind e found := by
  have hlast {xs ys : List Rule} (h : xs.getLast?.toList = ys.getLast?.toList) :
      xs.getLast? = ys.getLast? := by
    rw [← Option.head?_toList (o := xs.getLast?), h, Option.head?_toList]
  cases kind with
  | option => simp only [compose, hlast h]
  | choice | tuple => exact congrArg _ h
  | list => simp only [compose, hlast h]
  | preInstruction => rfl

/-- An element that keeps its name, the fields that count and the nested rules that are kept is read
as it was. -/
theorem ofElement_eq_ok_of_level (hkind : e.name = kind.tag) (hname : edited.name = e.name)
    (hagree : e.AgreeOn kind.fieldNames edited)
    (hinside : kind ≠ .preInstruction → ∀ found,
      ofChildren maxDepth file (depth + 1) e.children = .ok found →
        ∃ others, ofChildren maxDepth file (depth + 1) edited.children = .ok others ∧
          kind.keep others = kind.keep found)
    (h : ofElement maxDepth file depth e = .ok read) :
    ofElement maxDepth file depth edited = .ok read := by
  obtain ⟨rule, rfl⟩ : ∃ rule, read = some rule :=
    Option.ne_none_iff_exists'.mp fun hnone => ofElement_ne_ok_none hkind (hnone ▸ h)
  obtain ⟨_, hkind', hdepth, hread⟩ := ofElement_eq_some_iff.mp h
  obtain rfl := RuleKind.tag_injective (hkind.symm.trans hkind')
  refine ofElement_eq_some_iff.mpr ⟨kind, hname.trans hkind, hdepth, ?_⟩
  by_cases hpre : kind = .preInstruction
  · subst hpre
    rw [ofKind_preInstruction] at hread ⊢
    rw [compose_congr hagree, hread]
  · rw [ofKind_of_ne hpre, map_eq_ok_iff] at hread ⊢
    obtain ⟨found, hfound, rfl⟩ := hread
    obtain ⟨others, hothers, hkeep⟩ := hinside hpre found hfound
    exact ⟨others, hothers, by rw [compose_congr hagree, compose_eq_of_keep_eq hkeep]⟩

/-! ## Neighbors -/

section

variable {before after : List Element} {child : Element} {found : List Rule}

theorem ofChildren_append_eq_ok_iff :
    ofChildren maxDepth file depth (before ++ after) = .ok found ↔
      ∃ xs ys, ofChildren maxDepth file depth before = .ok xs ∧
        ofChildren maxDepth file depth after = .ok ys ∧ found = xs ++ ys := by
  simp only [ofChildren_append, bind_eq_ok_iff, pure_eq_ok_iff]
  constructor
  · rintro ⟨xs, hxs, ys, hys, rfl⟩
    exact ⟨xs, ys, hxs, hys, rfl⟩
  · rintro ⟨xs, ys, hxs, hys, rfl⟩
    exact ⟨xs, hxs, ys, hys, rfl⟩

theorem ofChildren_cons_eq_ok_iff :
    ofChildren maxDepth file depth (child :: after) = .ok found ↔
      ∃ first ys, ofElement maxDepth file depth child = .ok first ∧
        ofChildren maxDepth file depth after = .ok ys ∧ found = first.toList ++ ys := by
  simp only [ofChildren_cons, bind_eq_ok_iff, pure_eq_ok_iff]
  constructor
  · rintro ⟨first, hfirst, ys, hys, rfl⟩
    exact ⟨first, ys, hfirst, hys, rfl⟩
  · rintro ⟨first, ys, hfirst, hys, rfl⟩
    exact ⟨first, hfirst, ys, hys, rfl⟩

/-- A field among neighbors adds no nested rule. -/
theorem ofChildren_insert_field (h : child.name ∈ ruleFieldNames) :
    ofChildren maxDepth file depth (before ++ child :: after) =
      ofChildren maxDepth file depth (before ++ after) := by
  rw [ofChildren_append, ofChildren_append, ofChildren_cons_of_field h]

/-- Where a rule stands among neighbors, a rule is found. -/
theorem ne_nil_of_ofChildren_eq_ok (hread : ofChildren maxDepth file depth after = .ok found)
    (hrule : ∃ child ∈ after, child.name ∈ ruleNames) : found ≠ [] := by
  rintro rfl
  obtain ⟨child, hchild, hname⟩ := hrule
  have hnone := map_found_of_ofChildren_eq_ok hread
  rw [List.map_nil, eq_comm, List.map_eq_nil_iff, List.filter_eq_nil_iff] at hnone
  exact hnone child hchild (by simpa using hname)

end

theorem keep_append_of_ne_nil {xs ys zs : List Rule} (hlast : kind = .option ∨ kind = .list)
    (hzs : zs ≠ []) : kind.keep (xs ++ zs) = kind.keep (ys ++ zs) := by
  rcases hlast with rfl | rfl <;>
    simp [RuleKind.keep, List.getLast?_append_of_ne_nil _ hzs]

/-- An option or a list keeps its last nested rule, whatever rule or field stands before it. -/
theorem exists_ofChildren_eq_ok_of_later {before after : List Element} {found : List Rule}
    (middle others : List Element) (hlast : kind = .option ∨ kind = .list)
    (later : ∃ child ∈ after, child.name ∈ ruleNames)
    (hothers : ∃ ys, ofChildren maxDepth file depth others = .ok ys)
    (h : ofChildren maxDepth file depth (before ++ (middle ++ after)) = .ok found) :
    ∃ found', ofChildren maxDepth file depth (before ++ (others ++ after)) = .ok found' ∧
      kind.keep found' = kind.keep found := by
  obtain ⟨xs, rest, hxs, hrest, rfl⟩ := ofChildren_append_eq_ok_iff.mp h
  obtain ⟨ms, zs, hms, hzs, rfl⟩ := ofChildren_append_eq_ok_iff.mp hrest
  obtain ⟨ys, hys⟩ := hothers
  have hne := ne_nil_of_ofChildren_eq_ok hzs later
  refine ⟨xs ++ (ys ++ zs), ?_, ?_⟩
  · refine ofChildren_append_eq_ok_iff.mpr ⟨xs, ys ++ zs, hxs, ?_, rfl⟩
    exact ofChildren_append_eq_ok_iff.mpr ⟨ys, zs, hys, hzs, rfl⟩
  · rw [← List.append_assoc, ← List.append_assoc]
    exact keep_append_of_ne_nil hlast hne

/-! ## Edits -/

theorem exists_kind_of_last (h : e.name = "optionRule" ∨ e.name = "listRule") :
    ∃ kind : RuleKind, e.name = kind.tag ∧ kind ≠ .preInstruction ∧
      (kind = .option ∨ kind = .list) := by
  rcases h with h | h
  · exact ⟨.option, h, RuleKind.noConfusion, .inl rfl⟩
  · exact ⟨.list, h, RuleKind.noConfusion, .inr rfl⟩

/-- An edit of an element makes no difference to what it is read as. -/
theorem ofElement_eq_ok_of_edit (hedit : Edit maxDepth file depth e edited)
    (h : ofElement maxDepth file depth e = .ok read) :
    ofElement maxDepth file depth edited = .ok read := by
  cases hedit with
  | @repeatField before after field rule children named first =>
    obtain ⟨kind, hkind⟩ := (mem_ruleNames_iff e.name).mp rule
    refine ofElement_eq_ok_of_level hkind rfl (Element.agreeOn_of_find?_eq fun name _ => ?_) ?_ h
    · rw [Element.find?_splice fun hsame => hsame ▸ first, Element.find?, children]
    · intro _ found hfound
      refine ⟨found, ?_, rfl⟩
      rw [ofChildren_insert_field named, ← children, hfound]
  | @idleField kind before after field rule children named idle =>
    refine ofElement_eq_ok_of_level rule rfl (Element.agreeOn_of_find?_eq fun name hname => ?_) ?_ h
    · rw [Element.find?_splice fun hsame => absurd (hsame ▸ hname) idle, Element.find?, children]
    · intro _ found hfound
      refine ⟨found, ?_, rfl⟩
      rw [ofChildren_insert_field named, ← children, hfound]
  | @dropNested before after dropped rule children nested later =>
    obtain ⟨kind, hkind, -, hlast⟩ := exists_kind_of_last rule
    refine ofElement_eq_ok_of_level hkind rfl
      (Element.agreeOn_of_find?_eq fun name hname => ?_) ?_ h
    · rw [Element.find?, children, find?_splice_of_rule nested hname]
    · intro _ found hfound
      rw [children] at hfound
      exact exists_ofChildren_eq_ok_of_later [dropped] [] hlast later ⟨[], rfl⟩ hfound
  | @replaceNested before after dropped replacement other rule children nested later reads =>
    obtain ⟨kind, hkind, -, hlast⟩ := exists_kind_of_last rule
    obtain ⟨kind', hreplacement, -, -⟩ := ofElement_eq_some_iff.mp reads
    have hrule : replacement.name ∈ ruleNames := hreplacement ▸ tag_mem_ruleNames kind'
    refine ofElement_eq_ok_of_level hkind rfl
      (Element.agreeOn_of_find?_eq fun name hname => ?_) ?_ h
    · rw [Element.find?, children, find?_splice_of_rule nested hname,
        find?_splice_of_rule hrule hname]
    · intro _ found hfound
      rw [children] at hfound
      have hread : ofChildren maxDepth file (depth + 1) [replacement] = .ok [other] :=
        ofChildren_cons_eq_ok_iff.mpr ⟨some other, [], reads, rfl, rfl⟩
      exact exists_ofChildren_eq_ok_of_later [dropped] [replacement] hlast later ⟨_, hread⟩ hfound
  | preInstruction rule children firsts =>
    have hkind : e.name = RuleKind.preInstruction.tag := rule
    exact ofElement_eq_ok_of_level hkind rfl (Element.agreeOn_of_find?_eq firsts)
      (fun hne => absurd rfl hne) h
  | attributes rule attributes identified =>
    obtain ⟨kind, hkind⟩ := (mem_ruleNames_iff e.name).mp rule
    exact ofElement_eq_ok_of_level hkind rfl ⟨identified, fun _ _ => rfl⟩
      (fun _ found hfound => ⟨found, hfound, rfl⟩) h
  | text rule text =>
    obtain ⟨kind, hkind⟩ := (mem_ruleNames_iff e.name).mp rule
    exact ofElement_eq_ok_of_level hkind rfl ⟨rfl, fun _ _ => rfl⟩
      (fun _ found hfound => ⟨found, hfound, rfl⟩) h

theorem Edit.name_eq (h : Edit maxDepth file depth e edited) :
    edited.name = e.name ∧ e.name ∈ ruleNames := by
  cases h with
  | repeatField rule | attributes rule | text rule => exact ⟨rfl, rule⟩
  | idleField rule => exact ⟨rfl, rule ▸ tag_mem_ruleNames _⟩
  | dropNested rule | replaceNested rule =>
    obtain ⟨kind, hkind, -⟩ := exists_kind_of_last rule
    exact ⟨rfl, hkind ▸ tag_mem_ruleNames kind⟩
  | preInstruction rule => exact ⟨rfl, rule ▸ tag_mem_ruleNames .preInstruction⟩

/-- Only rules are edited, and they keep their names. -/
theorem EditInside.name_eq (h : EditInside maxDepth file depth e edited) :
    edited.name = e.name ∧ e.name ∈ ruleNames := by
  cases h with
  | here edit => exact edit.name_eq
  | inside rule => exact ⟨rfl, mem_ruleNames_of_mem_nesting rule⟩

/-- An edit anywhere in an element makes no difference to what it is read as. -/
theorem ofElement_eq_ok_of_editInside (hedit : EditInside maxDepth file depth e edited)
    (h : ofElement maxDepth file depth e = .ok read) :
    ofElement maxDepth file depth edited = .ok read := by
  induction hedit generalizing read with
  | here edit => exact ofElement_eq_ok_of_edit edit h
  | @inside depth e child edited before after rule children edit ih =>
    obtain ⟨hname, hrule⟩ := edit.name_eq
    obtain ⟨kind, hkind⟩ := (mem_ruleNames_iff e.name).mp (mem_ruleNames_of_mem_nesting rule)
    refine ofElement_eq_ok_of_level hkind rfl
      (Element.agreeOn_of_find?_eq fun name hfield => ?_) ?_ h
    · rw [Element.find?, children, find?_splice_of_rule hrule hfield,
        find?_splice_of_rule (hname ▸ hrule) hfield]
    · intro _ found hfound
      rw [children] at hfound
      obtain ⟨xs, rest, hxs, hrest, rfl⟩ := ofChildren_append_eq_ok_iff.mp hfound
      obtain ⟨first, ys, hfirst, hys, rfl⟩ := ofChildren_cons_eq_ok_iff.mp hrest
      have hafter := ofChildren_cons_eq_ok_iff.mpr ⟨first, ys, ih hfirst, hys, rfl⟩
      exact ⟨_, ofChildren_append_eq_ok_iff.mpr ⟨xs, _, hxs, hafter, rfl⟩, rfl⟩

/-- An element that is read as a rule is read as the same rule after any number of edits, of its own
or of the rules in it. -/
theorem ofElement_eq_ok_of_edits
    (hedits : Relation.ReflTransGen (EditInside maxDepth file depth) e edited)
    (h : ofElement maxDepth file depth e = .ok read) :
    ofElement maxDepth file depth edited = .ok read := by
  induction hedits with
  | refl => exact h
  | tail _ hedit ih => exact ofElement_eq_ok_of_editInside hedit ih

/-- A field or a rule with nothing inside. -/
def leaf (name text : String) : Element := ⟨name, text, [], []⟩

/-- A list with two nested rules, the first of the given name. -/
def draftedList (first : String) : Element :=
  ⟨"listRule", "", [], [leaf first "", ⟨"preInstruction", "", [("id", "p")], []⟩]⟩

/-- An option around such a list, with fields behind it. -/
def draftedOption (first : String) (fields : List Element) : Element :=
  ⟨"optionRule", "", [("id", "o")], draftedList first :: fields⟩

/-- The first nested rule of the list is replaced at depth two, and a field repeated at depth one;
the rule stays as it was. -/
theorem ofElement_draftedOption :
    let draft := draftedOption "preInstruction" [leaf "displayName" "A"]
    let final := draftedOption "choiceRule" [leaf "displayName" "A", leaf "displayName" "B"]
    let rule := option ⟨"o", "A", ""⟩
      (some (list ⟨"", "", ""⟩ (some (preInstruction ⟨"p", "", ""⟩ "")) "" "")) false
    Relation.ReflTransGen (EditInside 3 none 1) draft final ∧
      ofElement 3 none 1 draft = .ok (some rule) ∧ ofElement 3 none 1 final = .ok (some rule) := by
  intro draft final rule
  let between := draftedOption "choiceRule" [leaf "displayName" "A"]
  have hlist : Edit 3 none 2 (draftedList "preInstruction") (draftedList "choiceRule") :=
    @Edit.replaceNested 3 none 2 _ [] [⟨"preInstruction", "", [("id", "p")], []⟩]
      (leaf "preInstruction" "") (leaf "choiceRule" "") (choice ⟨"", "", ""⟩ [] 0)
      (.inr rfl) rfl (by decide) ⟨_, .head _, by decide⟩ rfl
  have hfirst : EditInside 3 none 1 draft between :=
    @EditInside.inside 3 none 1 _ _ _ [] [leaf "displayName" "A"] (by decide) rfl (.here hlist)
  have hsecond : EditInside 3 none 1 between final :=
    .here (@Edit.repeatField 3 none 1 _ [draftedList "choiceRule", leaf "displayName" "A"] []
      (leaf "displayName" "B") (by decide) rfl (by decide) ⟨_, .tail _ (.head _), rfl⟩)
  have hedits : Relation.ReflTransGen (EditInside 3 none 1) draft final :=
    .tail (.single hfirst) hsecond
  have hread : ofElement 3 none 1 draft = .ok (some rule) := rfl
  exact ⟨hedits, hread, ofElement_eq_ok_of_edits hedits hread⟩

end Rule

end CutsceneCatalog
