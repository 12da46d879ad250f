import CutsceneCatalog.Proofs.FieldReading
import CutsceneCatalog.Proofs.RuleReading

/-!
# Rules that mirror their elements

A rule that is read says what its element says, on every level: its kind is that of the element's
name, its nested rules are those of the children named like rules, and its fields are read from the
first children of their names.  Two opposite conventions meet on one list of children: of the
children with one field's name the first counts, and of the nested rules of an option or a list the
last.

`Rule.MirrorsAt` says it for one level, kind by kind, and refers to the level below only through
what its children are read as.  `Rule.Mirrors` adds that the nested rules mirror these children in
turn, and `Rule.mirrors_of_ofElement_eq_ok` is the main statement.
-/

namespace CutsceneCatalog

/-- The children that are rules by their names, in document order. -/
def Element.ruleChildren (e : Element) : List Element := e.children.filter (·.name ∈ ruleNames)

namespace Rule

variable {maxDepth depth : Int} {file : Option String} {e : Element} {kind : RuleKind} {rule : Rule}

/-- A rule that says what an element at the given depth says, as far as its own level goes. -/
inductive MirrorsAt (maxDepth : Int) (file : Option String) (depth : Int) (e : Element) :
    Rule → Prop
  /-- Of the nested rules of an option the last one is its target. -/
  | option {heading : Heading} {target : Option Rule} {startEnabled : Bool}
      (named : e.name = "optionRule") (headed : heading.IsOf e)
      (last : target.map (fun rule => .ok (some rule)) =
        e.ruleChildren.getLast?.map (ofElement maxDepth file (depth + 1)))
      (enabled : e.FieldIs "startEnabled" boolOfText false startEnabled) :
      MirrorsAt maxDepth file depth e (.option heading target startEnabled)
  /-- Each nested rule of a choice is one of its targets, and there are no others. -/
  | choice {heading : Heading} {targets : List Rule} {startSelected : Int}
      (named : e.name = "choiceRule") (headed : heading.IsOf e)
      (all : targets.map (fun rule => .ok (some rule)) =
        e.ruleChildren.map (ofElement maxDepth file (depth + 1)))
      (selected : e.FieldIs "startSelected" intOfText 0 startSelected) :
      MirrorsAt maxDepth file depth e (.choice heading targets startSelected)
  /-- Each nested rule of a tuple is one of its targets, and there are no others. -/
  | tuple {heading : Heading} {targets : List Rule} {previewSeparator : String}
      (named : e.name = "tupleRule") (headed : heading.IsOf e)
      (all : targets.map (fun rule => .ok (some rule)) =
        e.ruleChildren.map (ofElement maxDepth file (depth + 1)))
      (separated : e.FieldIs "previewSeparator" .ok "" previewSeparator) :
      MirrorsAt maxDepth file depth e (.tuple heading targets previewSeparator)
  /-- Of the nested rules of a list the last one is its target. -/
  | list {heading : Heading} {target : Option Rule} {addButtonText previewSeparator : String}
      (named : e.name = "listRule") (headed : heading.IsOf e)
      (last : target.map (fun rule => .ok (some rule)) =
        e.ruleChildren.getLast?.map (ofElement maxDepth file (depth + 1)))
      (button : e.FieldIs "addButtonText" .ok "" addButtonText)
      (separated : e.FieldIs "previewSeparator" .ok "" previewSeparator) :
      MirrorsAt maxDepth file depth e (.list heading target addButtonText previewSeparator)
  /-- A pre-instruction has nothing inside, whatever its children are. -/
  | preInstruction {heading : Heading} {opcode : String}
      (named : e.name = "preInstruction") (headed : heading.IsOf e)
      (coded : e.FieldIs "opcode" .ok "" opcode) :
      MirrorsAt maxDepth file depth e (.preInstruction heading opcode)

/-- A rule that says what an element says on every level. -/
inductive Mirrors (maxDepth : Int) (file : Option String) : Int → Element → Rule → Prop
  | intro {depth : Int} {e : Element} {rule : Rule}
      (here : MirrorsAt maxDepth file depth e rule)
      (fields : ∀ child ∈ e.ruleChildren, child.name ∉ ruleFieldNames)
      (inside : ∀ child ∈ e.ruleChildren, ∀ below ∈ rule.nested,
        ofElement maxDepth file (depth + 1) child = .ok (some below) →
          Mirrors maxDepth file (depth + 1) child below) :
      Mirrors maxDepth file depth e rule

theorem mirrorsAt_compose (named : e.name = kind.tag) {found : List Rule}
    (hfound : kind ≠ .preInstruction → found.map (fun rule => .ok (some rule)) =
      e.ruleChildren.map (ofElement maxDepth file (depth + 1))) :
    MirrorsAt maxDepth file depth e (compose kind e found) := by
  have headed := Heading.isOf_ofElement e
  have hlast (hkind : kind ≠ .preInstruction) :
      found.getLast?.map (fun rule => .ok (some rule)) =
        e.ruleChildren.getLast?.map (ofElement maxDepth file (depth + 1)) := by
    rw [← List.getLast?_map, hfound hkind, List.getLast?_map]
  cases kind with
  | option =>
    exact .option named headed (hlast RuleKind.noConfusion) (e.fieldIs_field _ boolOfText false)
  | choice =>
    exact .choice named headed (hfound RuleKind.noConfusion) (e.fieldIs_field _ intOfText 0)
  | tuple =>
    exact .tuple named headed (hfound RuleKind.noConfusion) (e.fieldIs_field _ .ok "")
  | list =>
    exact .list named headed (hlast RuleKind.noConfusion) (e.fieldIs_field _ .ok "")
      (e.fieldIs_field _ .ok "")
  | preInstruction => exact .preInstruction named headed (e.fieldIs_field _ .ok "")

/-- A rule that is read mirrors its element on its own level. -/
theorem mirrorsAt_of_ofElement_eq_ok (h : ofElement maxDepth file depth e = .ok (some rule)) :
    MirrorsAt maxDepth file depth e rule := by
  obtain ⟨kind, named, -, hread⟩ := ofElement_eq_some_iff.mp h
  by_cases hkind : kind = .preInstruction
  · rw [hkind, ofKind_preInstruction] at hread
    obtain rfl := Except.ok.inj hread
    exact mirrorsAt_compose (hkind ▸ named) (fun hne => absurd rfl hne)
  · rw [ofKind_of_ne hkind, map_eq_ok_iff] at hread
    obtain ⟨found, hfound, rfl⟩ := hread
    exact mirrorsAt_compose named fun _ => map_found_of_ofChildren_eq_ok hfound

/-- A rule that is read mirrors its element on every level. -/
theorem mirrors_of_ofElement_eq_ok (h : ofElement maxDepth file depth e = .ok (some rule)) :
    Mirrors maxDepth file depth e rule := by
  induction e using Element.induct generalizing depth rule with
  | step e ih =>
    refine .intro (mirrorsAt_of_ofElement_eq_ok h) ?_ ?_
    · intro child hchild
      exact not_mem_ruleFieldNames_of_mem_ruleNames (by simpa using List.of_mem_filter hchild)
    · intro child hchild below _ hread
      exact ih child (List.mem_of_mem_filter hchild) hread

/-- An option with two nested rules and its fields around them, one of them malformed where it
counts. -/
def shuffledElement : Element :=
  let leaf (name text : String) : Element := ⟨name, text, [], []⟩
  ⟨"optionRule", "", [("id", "o")],
    [leaf "startEnabled" "maybe",
      ⟨"preInstruction", "", [], [leaf "opcode" "Wait", leaf "nothing" "", leaf "listRule" ""]⟩,
      leaf "startEnabled" "true",
      ⟨"choiceRule", "", [("color", "red")],
        [leaf "tupleRule" "", leaf "displayName" "One", leaf "startSelected" " +7 ",
          ⟨"preInstruction", "", [("id", "p")], [leaf "listRule" ""]⟩, leaf "displayName" "Two"]⟩,
      leaf "description" "Last"]⟩

/-- The rule that `shuffledElement` is read as. -/
def shuffled : Rule :=
  option ⟨"o", "", "Last"⟩
    (some (choice ⟨"", "One", ""⟩
      [tuple ⟨"", "", ""⟩ [] "", preInstruction ⟨"p", "", ""⟩ ""] 7)) false

theorem mirrors_shuffledElement :
    ofElement 3 none 1 shuffledElement = .ok (some shuffled) ∧
      Mirrors 3 none 1 shuffledElement shuffled := by
  have hread : ofElement 3 none 1 shuffledElement = .ok (some shuffled) := rfl
  exact ⟨hread, mirrors_of_ofElement_eq_ok hread⟩

end Rule

end CutsceneCatalog
