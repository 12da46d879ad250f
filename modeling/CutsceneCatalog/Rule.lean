import CutsceneCatalog.Heading
import CutsceneCatalog.ImportError
import CutsceneCatalog.Vocabulary

/-!
# Compile rules

A compile rule says how the arguments of an instruction are put together.  Rules nest: an option and
a list have at most one nested rule, a choice and a tuple any number of them, a pre-instruction
none.

A rule is read from an element whose children are its fields and its nested rules.  All nested rules
are read, and whatever is wrong with one of them is an error, even where only the last one is kept
(`Rule.ofElement`).  The first error in document order is the one reported; an element that is no
rule is an error at any depth, and a rule is an error below the greatest depth.  The file that the
element stands in is handed down to every level, for the errors to name.
-/

namespace CutsceneCatalog

/-- A rule that builds the code of an instruction. -/
inductive Rule
  /-- A rule that can be switched on and off. -/
  | option (heading : Heading) (target : Option Rule) (startEnabled : Bool)
  /-- Alternatives of which one is chosen. -/
  | choice (heading : Heading) (targets : List Rule) (startSelected : Int)
  /-- A fixed group of rules. -/
  | tuple (heading : Heading) (targets : List Rule) (previewSeparator : String)
  /-- Any number of repetitions of a rule. -/
  | list (heading : Heading) (target : Option Rule) (addButtonText previewSeparator : String)
  /-- The instruction of the given opcode, to be run before this one. -/
  | preInstruction (heading : Heading) (opcode : String)
deriving Repr

namespace Rule

/-- The kind of a rule. -/
def kind : Rule → RuleKind
  | option .. => .option
  | choice .. => .choice
  | tuple .. => .tuple
  | list .. => .list
  | preInstruction .. => .preInstruction

/-- Puts a rule of a kind together from its element's fields and its nested rules, of which an
option and a list keep the last one. -/
def compose (kind : RuleKind) (e : Element) (nested : List Rule) : Rule :=
  let heading := Heading.ofElement e
  match kind with
  | .option => .option heading nested.getLast? (e.boolField "startEnabled" false)
  | .choice => .choice heading nested (e.intField "startSelected" 0)
  | .tuple => .tuple heading nested (e.textField "previewSeparator" "")
  | .list =>
      .list heading nested.getLast? (e.textField "addButtonText" "")
        (e.textField "previewSeparator" "")
  | .preInstruction => .preInstruction heading (e.textField "opcode" "")

mutual

/-- Reads an element as a rule of the given kind, whatever its name and its depth. -/
def ofKind (maxDepth : Int) (file : Option String) (kind : RuleKind) (depth : Int) :
    Element → Except ImportError Rule
  | ⟨name, innerText, attributes, children⟩ =>
      let e : Element := ⟨name, innerText, attributes, children⟩
      match kind with
      | .preInstruction => .ok (compose .preInstruction e [])
      | kind => do
          let nested ← ofChildren maxDepth file (depth + 1) children
          return compose kind e nested

/-- Reads the nested rules among the children of a rule; `depth` is their depth. -/
def ofChildren (maxDepth : Int) (file : Option String) (depth : Int) :
    List Element → Except ImportError (List Rule)
  | [] => .ok []
  | child :: rest =>
      match RuleChild.ofTag? child.name with
      | none => .error ⟨.rule (.notARule child.name), file⟩
      | some .field => ofChildren maxDepth file depth rest
      | some (.rule kind) =>
          if maxDepth < depth then .error ⟨.rule (.tooDeep depth maxDepth), file⟩
          else do
            let first ← ofKind maxDepth file kind depth child
            let others ← ofChildren maxDepth file depth rest
            return first :: others

end

/-- Reads an element as a rule at the given depth; the field of a rule is no rule and no error. -/
def ofElement (maxDepth : Int) (file : Option String) (depth : Int) (e : Element) :
    Except ImportError (Option Rule) :=
  match RuleChild.ofTag? e.name with
  | none => .error ⟨.rule (.notARule e.name), file⟩
  | some .field => .ok none
  | some (.rule kind) =>
      if maxDepth < depth then .error ⟨.rule (.tooDeep depth maxDepth), file⟩
      else do
        let rule ← ofKind maxDepth file kind depth e
        return some rule

end Rule

end CutsceneCatalog
