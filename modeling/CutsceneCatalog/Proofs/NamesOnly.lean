import CutsceneCatalog.Definition
import CutsceneCatalog.Libraries.Standard
import CutsceneCatalog.Proofs.Outcome
import CutsceneCatalog.Proofs.RuleComparison

/-!
# What the names in a document decide

Two documents with the same tree of names are read alike, whatever texts and attributes they have,
whatever files surround them and wherever icons are looked for: both are refused, for the same
cause, or both give definitions with the same kinds of parameters and with rules of the same shape
(`Definition.read_alike_of_sameNames`).  No text of a field, and no icon, ever decides whether a
document is accepted.

The reading of a rule goes by the tree of names in `Rule.ofElement_alike`, by induction on the
element.  Above it there is one fold over the children of the root, whose two runs are compared step
by step (`Definition.extend_alike`).
-/

namespace CutsceneCatalog

/-- Two elements with the same name, whose children have the same trees of names in order. -/
inductive Element.SameNames : Element → Element → Prop
  | intro {e other : Element} (named : e.name = other.name)
      (children : List.Forall₂ SameNames e.children other.children) : SameNames e other

/-! ## Rules -/

namespace Rule

theorem shape_compose (kind : RuleKind) (e : Element) (found : List Rule) :
    (compose kind e found).shape = .node kind (kind.keep (found.map shape)) := by
  rw [shape_eq, kind_compose, nested_compose, RuleKind.map_keep]

/-- Elements with the same names are read as rules of the same shape, or refused for the same cause,
whatever files they stand in. -/
theorem ofElement_alike (maxDepth : Int) (file file' : Option String) (depth : Int)
    {e other : Element} (h : e.SameNames other) :
    Alike (fun error error' => error.cause = error'.cause)
      (Option.Rel fun rule rule' => rule.shape = rule'.shape)
      (ofElement maxDepth file depth e) (ofElement maxDepth file' depth other) := by
  induction e using Element.induct generalizing other depth with
  | step e ih =>
    obtain ⟨named, children⟩ := h
    refine ofElement_alike_of_level named.symm rfl Iff.rfl rfl ?_ ?_
    · intro _ kind found found' hsame
      have hshapes : found.map shape = found'.map shape := by
        rw [← List.forall₂_eq_eq_eq, List.forall₂_map_left_iff, List.forall₂_map_right_iff]
        exact hsame
      rw [shape_compose, shape_compose, hshapes]
    · intro _
      exact forall₂_imp_of_mem children fun child hmem _ hsame => ih child hmem (depth + 1) hsame

end Rule

/-! ## Definitions -/

namespace Definition

/-- What two definitions have in common whose documents have the same names. -/
structure SameOutline (definition other : Definition) : Prop where
  parameterKinds : definition.parameters.map Parameter.kind = other.parameters.map Parameter.kind
  hideDefaultOutput : definition.hideDefaultOutput = other.hideDefaultOutput
  ruleShapes : definition.rules.map Rule.shape = other.rules.map Rule.shape

theorem kind_ofKind (kind : ParameterKind) (e : Element) :
    (Parameter.ofKind kind e).kind = kind := by
  cases kind <;> rfl

section

variable {around elsewhere : Surroundings}
  (hdepth : around.settings.maxRuleDepth = elsewhere.settings.maxRuleDepth)
include hdepth

theorem extend_alike (file file' : Option String) (definition definition' : Definition)
    (e other : Element) (hsame : SameOutline definition definition')
    (hnames : e.SameNames other) :
    Alike (fun error error' => error.cause = error'.cause) SameOutline
      (extend around file definition e) (extend elsewhere file' definition' other) := by
  obtain ⟨named⟩ := id hnames
  obtain ⟨hkinds, hhide, hshapes⟩ := hsame
  unfold extend
  rw [named]
  cases Entry.ofTag? other.name with
  | none => exact .error rfl
  | some entry =>
    cases entry with
    | parameter kind =>
      refine .ok ⟨?_, hhide, hshapes⟩
      rw [List.map_append, List.map_append, hkinds, List.map_singleton, List.map_singleton,
        kind_ofKind, kind_ofKind]
    | hideDefaultOutput => exact .ok ⟨hkinds, rfl, hshapes⟩
    | rule kind =>
      dsimp only
      rw [hdepth]
      refine (Rule.ofElement_alike _ file file' 1 hnames).bind fun rule rule' hrule => ?_
      cases hrule with
      | none => exact .ok ⟨hkinds, hhide, hshapes⟩
      | some hshape =>
        refine .ok ⟨hkinds, hhide, ?_⟩
        rw [List.map_append, List.map_append, hshapes, List.map_singleton, List.map_singleton,
          hshape]
    | _ => exact .ok ⟨hkinds, hhide, hshapes⟩

end

/-- Surroundings with the given files, in which icons are looked for at the root. -/
def folderWith (files : Files) : Surroundings :=
  ⟨files, .atRoot, .standard .atRoot, ⟨.root, []⟩⟩

/-- A document with an icon, a number and a choice, and the given text in all of them. -/
def documentOf (text : String) : Element :=
  let leaf (name : String) : Element := ⟨name, text, [("id", text)], []⟩
  ⟨"definition", text, [],
    [leaf "icon", ⟨"intParameter", text, [], [leaf "defaultValue"]⟩,
      ⟨"choiceRule", text, [], [leaf "startSelected", leaf "preInstruction"]⟩]⟩

end Definition

end CutsceneCatalog
