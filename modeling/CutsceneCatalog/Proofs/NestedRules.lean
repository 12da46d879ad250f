import CutsceneCatalog.Rule

/-!
# Rules as trees

The rules inside a rule are an option, a list or none at all, by its kind.  Here they are a list for
every kind (`Rule.nested`), and with that a rule is a tree whose nodes have any number of children.
Everything that is gathered from the inside of a rule is a `Rule.fold`, and `Rule.fold_eq` is its
only equation: the height, the shape, and what holds at every level.

`Rule.induct` is the induction that goes with it.
-/

namespace CutsceneCatalog

namespace Rule

/-- The rules that stand directly inside a rule, in order. -/
def nested : Rule → List Rule
  | option _ target _ => target.toList
  | choice _ targets _ => targets
  | tuple _ targets _ => targets
  | list _ target _ _ => target.toList
  | preInstruction .. => []

/-- What a rule has in common with every other. -/
def heading : Rule → Heading
  | option heading .. => heading
  | choice heading .. => heading
  | tuple heading .. => heading
  | list heading .. => heading
  | preInstruction heading _ => heading

/-! ## Folding a rule -/

variable {β : Type}

mutual

/-- Combines every rule in a tree with what the rules directly inside it give. -/
def fold (combine : Rule → List β → β) : Rule → β
  | option heading target startEnabled =>
      combine (option heading target startEnabled) (foldTarget combine target)
  | choice heading targets startSelected =>
      combine (choice heading targets startSelected) (foldTargets combine targets)
  | tuple heading targets previewSeparator =>
      combine (tuple heading targets previewSeparator) (foldTargets combine targets)
  | list heading target addButtonText previewSeparator =>
      combine (list heading target addButtonText previewSeparator) (foldTarget combine target)
  | preInstruction heading opcode => combine (preInstruction heading opcode) []

def foldTarget (combine : Rule → List β → β) : Option Rule → List β
  | none => []
  | some rule => [fold combine rule]

def foldTargets (combine : Rule → List β → β) : List Rule → List β
  | [] => []
  | rule :: rest => fold combine rule :: foldTargets combine rest

end

theorem foldTarget_eq (combine : Rule → List β → β) (target : Option Rule) :
    foldTarget combine target = target.toList.map (fold combine) := by
  cases target <;> rfl

theorem foldTargets_eq (combine : Rule → List β → β) (targets : List Rule) :
    foldTargets combine targets = targets.map (fold combine) := by
  induction targets with
  | nil => rfl
  | cons rule rest ih => rw [foldTargets, ih, List.map_cons]

theorem fold_eq (combine : Rule → List β → β) (rule : Rule) :
    rule.fold combine = combine rule (rule.nested.map (fold combine)) := by
  cases rule <;> simp [fold, foldTarget_eq, foldTargets_eq, nested]

theorem nested_of_preInstruction {rule : Rule} (h : rule.kind = .preInstruction) :
    rule.nested = [] := by
  cases rule <;> first | rfl | cases h

/-! ## Height and induction -/

/-- The number of levels of rules; a rule without rules inside has one. -/
def height : Rule → Nat := fold fun _ heights => heights.foldr max 0 + 1

theorem foldr_max_le_iff {heights : List Nat} {bound : Nat} :
    heights.foldr max 0 ≤ bound ↔ ∀ height ∈ heights, height ≤ bound := by
  induction heights with
  | nil => simp
  | cons height rest ih =>
    rw [List.foldr_cons, Nat.max_le, ih, List.forall_mem_cons]

theorem height_le_succ_iff {rule : Rule} {bound : Nat} :
    rule.height ≤ bound + 1 ↔ ∀ below ∈ rule.nested, below.height ≤ bound := by
  unfold height
  rw [fold_eq, Nat.add_le_add_iff_right, foldr_max_le_iff, List.forall_mem_map]

theorem one_le_height (rule : Rule) : 1 ≤ rule.height := by
  unfold height
  rw [fold_eq]
  exact Nat.le_add_left 1 _

/-- No level of the rule is below the greatest depth, if the rule itself stands at `depth`. -/
def Fits (maxDepth depth : Int) (rule : Rule) : Prop := depth + rule.height - 1 ≤ maxDepth

instance {maxDepth depth : Int} {rule : Rule} : Decidable (rule.Fits maxDepth depth) :=
  inferInstanceAs (Decidable (_ ≤ _))

theorem fits_iff {rule : Rule} {maxDepth depth : Int} :
    rule.Fits maxDepth depth ↔
      depth ≤ maxDepth ∧ ∀ below ∈ rule.nested, below.Fits maxDepth (depth + 1) := by
  have hpos := rule.one_le_height
  unfold Fits
  constructor
  · intro hfits
    have hheight : rule.height ≤ (maxDepth - depth).toNat + 1 := by omega
    refine ⟨by omega, fun below hbelow => ?_⟩
    have := height_le_succ_iff.mp hheight below hbelow
    omega
  · rintro ⟨hdepth, hnested⟩
    have hheight : rule.height ≤ (maxDepth - depth).toNat + 1 := by
      refine height_le_succ_iff.mpr fun below hbelow => ?_
      have := hnested below hbelow
      omega
    omega

theorem height_lt_of_mem {rule below : Rule} (h : below ∈ rule.nested) :
    below.height < rule.height := by
  obtain ⟨bound, hbound⟩ := Nat.exists_eq_add_of_le' rule.one_le_height
  have hall := height_le_succ_iff.mp (Nat.le_of_eq hbound)
  exact hbound ▸ Nat.lt_succ_of_le (hall below h)

/-- What holds of a rule whenever it holds of the rules directly inside, holds of every rule. -/
@[elab_as_elim]
theorem induct {p : Rule → Prop} (step : ∀ rule, (∀ below ∈ rule.nested, p below) → p rule)
    (rule : Rule) : p rule :=
  step rule fun below _ => induct step below
termination_by rule.height
decreasing_by exact height_lt_of_mem ‹_›

/-! ## Every level -/

/-- A property of a rule and of all rules inside it, at any depth. -/
def Everywhere (p : Rule → Prop) : Rule → Prop :=
  fold fun rule below => p rule ∧ ∀ q ∈ below, q

theorem everywhere_iff {p : Rule → Prop} {rule : Rule} :
    rule.Everywhere p ↔ p rule ∧ ∀ below ∈ rule.nested, below.Everywhere p := by
  unfold Everywhere
  rw [fold_eq, List.forall_mem_map]

end Rule

/-! ## Shapes -/

/-- What is left of a rule when all its texts and values are gone. -/
inductive RuleShape
  | node (kind : RuleKind) (nested : List RuleShape)
deriving Repr

/-- The kinds of a rule and of the rules inside it, level by level. -/
def Rule.shape : Rule → RuleShape := fold fun rule shapes => .node rule.kind shapes

theorem Rule.shape_eq (rule : Rule) :
    rule.shape = .node rule.kind (rule.nested.map shape) := by
  unfold shape
  rw [fold_eq]

end CutsceneCatalog
