import CutsceneCatalog.Element.Assembly
import Mathlib.Data.List.Basic
import Mathlib.Data.List.Nodup

/-!
# Assembling an element, step by step

`Element.work?` makes steps until none is left, and keeps the elements it has built under the
numbers of their nodes.  Here it is followed turn by turn: `Element.after?` makes a given number of
turns and no more, and it fails where a turn needs an element that has not been built, or where the
steps have run out too early.

A node is entered once and finished once.  By the time it is finished, its children stand in front
of what was built before, first child foremost, and finishing takes exactly them away.  These are
`Element.after?_enter` and `Element.after?_openAll`, by induction on the tree; they need that no two
nodes share a number, since an element that is put under a number replaces the one that was there.

The main statement is `Element.assemble?_eq_some_ofNode`: the loop over a tree stops after two turns
for each node, with nothing but the root built, and the root is what recursion on the tree gives.
-/

namespace CutsceneCatalog

open Markup (Node)

/-! ## Numbers of nodes -/

mutual

/-- The numbers of the nodes of a tree, in document order. -/
def nodeIds : Node → List Nat
  | ⟨id, _, _, _, _, children⟩ => id :: forestIds children

/-- The numbers of the nodes of several trees. -/
def forestIds : List Node → List Nat
  | [] => []
  | node :: rest => nodeIds node ++ forestIds rest

end

theorem nodeIds_eq (node : Node) : nodeIds node = node.id :: forestIds node.children := by
  cases node
  rfl

theorem id_mem_nodeIds (node : Node) : node.id ∈ nodeIds node := by
  rw [nodeIds_eq]
  exact List.mem_cons_self

theorem id_mem_forestIds {node : Node} {nodes : List Node} (h : node ∈ nodes) :
    node.id ∈ forestIds nodes := by
  induction nodes with
  | nil => cases h
  | cons first rest ih =>
    rw [forestIds, List.mem_append]
    rcases List.mem_cons.mp h with rfl | hrest
    · exact Or.inl (id_mem_nodeIds node)
    · exact Or.inr (ih hrest)

namespace Element

/-! ## What recursion on a tree gives -/

theorem ofNodes_eq (nodes : List Node) :
    ofNodes nodes = nodes.map fun node => (ofNode node, node.tail) := by
  induction nodes with
  | nil => rfl
  | cons node rest ih => rw [ofNodes, ih, List.map_cons]

/-- The element of a tree has the name and the attributes of its root, the elements of its children
in their order, and for its text the text in front of the children and then, child by child, the
text of each and the text after it. -/
theorem ofNode_eq (node : Node) :
    ofNode node =
      { name := node.name
        innerText := node.text.getD "" ++ String.join
          (node.children.map fun child => (ofNode child).innerText ++ child.tail.getD "")
        attributes := node.attributes
        children := node.children.map ofNode } := by
  obtain ⟨id, name, attributes, text, tail, children⟩ := node
  simp [ofNode, ofNodes_eq, joinText, Function.comp_def]

/-! ## Elements under numbers -/

/-- The elements of several trees, each under the number of its root. -/
def builtOf (nodes : List Node) : Built := nodes.map fun node => (node.id, ofNode node)

theorem keys_builtOf (nodes : List Node) : (builtOf nodes).map Prod.fst = nodes.map Node.id := by
  simp [builtOf, Function.comp_def]

/-- Under a new number, nothing is replaced. -/
theorem putBuilt_of_new {id : Nat} {built : Built} (h : id ∉ built.map Prod.fst)
    (element : Element) : putBuilt id element built = (id, element) :: built := by
  have hkept : built.filter (fun entry => entry.1 != id) = built := by
    rw [List.filter_eq_self]
    intro entry hmem
    refine bne_iff_ne.mpr ?_
    rintro rfl
    exact h (List.mem_map_of_mem hmem)
  exact congrArg (List.cons (id, element)) hkept

/-- What stands in front is taken away, child by child, and nothing else. -/
theorem takeAll?_builtOf_append (nodes : List Node) (built : Built) :
    takeAll? nodes (builtOf nodes ++ built) = some (ofNodes nodes, built) := by
  induction nodes with
  | nil => rfl
  | cons node rest ih =>
    have hfront : takeBuilt? node.id (builtOf (node :: rest) ++ built) =
        some (ofNode node, builtOf rest ++ built) := by
      simp [builtOf, takeBuilt?]
    simp [takeAll?, hfront, ih, ofNodes]

/-- A node whose children stand in front is finished, and takes their place. -/
theorem finish?_eq_some {node : Node} {built : Built} (h : node.id ∉ built.map Prod.fst) :
    finish? node (builtOf node.children ++ built) = some ((node.id, ofNode node) :: built) := by
  have hnode : (⟨node.name, joinText node.text (ofNodes node.children), node.attributes,
      (ofNodes node.children).map Prod.fst⟩ : Element) = ofNode node := by
    cases node
    rfl
  simp [finish?, takeAll?_builtOf_append, hnode, putBuilt_of_new h]

/-! ## Turns -/

/-- The steps and the elements that are left after a number of turns.  There is no turn where no
step is left, and none where an element is needed that has not been built. -/
def after? : (turns : Nat) → List Step → Built → Option (List Step × Built)
  | 0, steps, built => some (steps, built)
  | _ + 1, [], _ => none
  | turns + 1, .enter node :: rest, built =>
      after? turns (openAll node.children ++ .finish node :: rest) built
  | turns + 1, .finish node :: rest, built => (finish? node built).bind (after? turns rest)

/-- Once no step is left after some turns, the work is done. -/
theorem work?_eq_some_of_after? {turns : Nat} {steps : List Step} {built result : Built}
    (h : after? turns steps built = some ([], result)) : work? steps built = some result := by
  induction turns generalizing steps built with
  | zero =>
    obtain ⟨rfl, rfl⟩ := Prod.mk.inj (Option.some.inj h)
    rw [work?]
  | succ turns ih =>
    cases steps with
    | nil => cases h
    | cons step rest =>
      cases step with
      | enter node =>
        rw [work?]
        exact ih h
      | finish node =>
        obtain ⟨next, hnext, hrest⟩ := Option.bind_eq_some_iff.mp h
        rw [work?, hnext]
        exact ih hrest

/-- The children of a node are opened last child first, so the first one is on top. -/
theorem openAll_cons (node : Node) (nodes : List Node) :
    openAll (node :: nodes) = openAll nodes ++ [.enter node] := by
  simp [openAll]

theorem not_mem_keys_builtOf_append {id : Nat} {nodes : List Node} {built : Built}
    (hforest : id ∉ forestIds nodes) (hbuilt : id ∉ built.map Prod.fst) :
    id ∉ (builtOf nodes ++ built).map Prod.fst := by
  rw [List.map_append, keys_builtOf, List.mem_append, not_or]
  refine ⟨?_, hbuilt⟩
  intro hmem
  obtain ⟨node, hnode, rfl⟩ := List.mem_map.mp hmem
  exact hforest (id_mem_forestIds hnode)

mutual

/-- Two turns for each node of a tree put its element in front of what was built. -/
theorem after?_enter :
    ∀ (node : Node) (rest : List Step) (built : Built) (turns : Nat), (nodeIds node).Nodup →
      (∀ id ∈ nodeIds node, id ∉ built.map Prod.fst) →
      after? (2 * nodeCount node + turns) (.enter node :: rest) built =
        after? turns rest ((node.id, ofNode node) :: built)
  | ⟨id, name, attributes, text, tail, children⟩ => by
      intro rest built turns hnodup hnew
      let node : Node := ⟨id, name, attributes, text, tail, children⟩
      have hids : nodeIds node = id :: forestIds children := nodeIds_eq node
      have hcount : nodeCount node = 1 + nodeCounts children := nodeCount_eq node
      rw [hids, List.nodup_cons] at hnodup
      rw [hids, List.forall_mem_cons] at hnew
      have hturns : 2 * nodeCount node + turns = (2 * nodeCounts children + (turns + 1)) + 1 := by
        omega
      calc after? (2 * nodeCount node + turns) (.enter node :: rest) built
          = after? (2 * nodeCounts children + (turns + 1))
              (openAll children ++ .finish node :: rest) built := by rw [hturns, after?]
        _ = after? (turns + 1) (.finish node :: rest) (builtOf children ++ built) :=
            after?_openAll children _ built (turns + 1) hnodup.2 hnew.2
        _ = after? turns rest ((node.id, ofNode node) :: built) := by
            rw [after?, finish?_eq_some hnew.1, Option.bind_some]

/-- Two turns for each node of several trees put their elements in front of what was built, the
first one foremost. -/
theorem after?_openAll :
    ∀ (nodes : List Node) (rest : List Step) (built : Built) (turns : Nat),
      (forestIds nodes).Nodup → (∀ id ∈ forestIds nodes, id ∉ built.map Prod.fst) →
      after? (2 * nodeCounts nodes + turns) (openAll nodes ++ rest) built =
        after? turns rest (builtOf nodes ++ built)
  | [] => by
      intro rest built turns _ _
      simp [nodeCounts, openAll, builtOf]
  | node :: nodes => by
      intro rest built turns hnodup hnew
      rw [forestIds, List.nodup_append'] at hnodup
      obtain ⟨hnode, hnodes, hdisjoint⟩ := hnodup
      simp only [forestIds, List.mem_append] at hnew
      have hturns : 2 * nodeCounts (node :: nodes) + turns =
          2 * nodeCounts nodes + (2 * nodeCount node + turns) := by
        rw [nodeCounts]
        omega
      -- The elements of the later trees are built first, and none of them is in the way.
      have hfree : ∀ id ∈ nodeIds node, id ∉ (builtOf nodes ++ built).map Prod.fst :=
        fun id hid => not_mem_keys_builtOf_append (hdisjoint hid) (hnew id (Or.inl hid))
      calc after? (2 * nodeCounts (node :: nodes) + turns) (openAll (node :: nodes) ++ rest) built
          = after? (2 * nodeCounts nodes + (2 * nodeCount node + turns))
              (openAll nodes ++ .enter node :: rest) built := by
            rw [hturns, openAll_cons, List.append_assoc, List.singleton_append]
        _ = after? (2 * nodeCount node + turns) (.enter node :: rest) (builtOf nodes ++ built) :=
            after?_openAll nodes _ built _ hnodes fun id hid => hnew id (Or.inr hid)
        _ = after? turns rest (builtOf (node :: nodes) ++ built) :=
            after?_enter node rest _ turns hnode hfree

end

/-- Over the tree of a root, the loop stops after two turns for each node, with the root built. -/
theorem after?_root {root : Node} (hnodup : (nodeIds root).Nodup) :
    after? (2 * nodeCount root) [.enter root] [] = some ([], [(root.id, ofNode root)]) := by
  have hrun := after?_enter root [] [] 0 hnodup fun id _ => List.not_mem_nil
  rwa [Nat.add_zero] at hrun

theorem assemble?_eq_some {root : Node} (hnodup : (nodeIds root).Nodup) :
    assemble? root = some (ofNode root) := by
  rw [assemble?, work?_eq_some_of_after? (after?_root hnodup)]
  simp

/-- If no two nodes of a tree share a number, the loop over it stops after two turns for each node,
with nothing but the root built; the element assembled is that of the tree, whose text, attributes
and children are those that recursion gives. -/
theorem assemble?_eq_some_ofNode (root : Node) (hnodup : (nodeIds root).Nodup) :
    after? (2 * nodeCount root) [.enter root] [] = some ([], [(root.id, ofNode root)]) ∧
      work? [.enter root] [] = some [(root.id, ofNode root)] ∧
      assemble? root = some (ofNode root) ∧
      ∀ node, ofNode node =
        { name := node.name
          innerText := node.text.getD "" ++ String.join
            (node.children.map fun child => (ofNode child).innerText ++ child.tail.getD "")
          attributes := node.attributes
          children := node.children.map ofNode } :=
  ⟨after?_root hnodup, work?_eq_some_of_after? (after?_root hnodup), assemble?_eq_some hnodup,
    ofNode_eq⟩

/-- The tree of `<a x="1">s<b>t<c/>u</b>v<c/></a>`, with text after the root. -/
def mixedTree : Node :=
  ⟨4, "a", [("x", "1")], some "s", some "after",
    [⟨2, "b", [], some "t", some "v", [⟨7, "c", [], none, some "u", []⟩]⟩,
      ⟨0, "c", [], none, none, []⟩]⟩

theorem assemble?_mixedTree :
    (nodeIds mixedTree).Nodup ∧ assemble? mixedTree = some (ofNode mixedTree) ∧
      ofNode mixedTree = ⟨"a", "stuv", [("x", "1")],
        [⟨"b", "tu", [], [⟨"c", "", [], []⟩]⟩, ⟨"c", "", [], []⟩]⟩ := by
  have hnodup : (nodeIds mixedTree).Nodup := by decide
  obtain ⟨-, -, hassembled, -⟩ := assemble?_eq_some_ofNode mixedTree hnodup
  exact ⟨hnodup, hassembled, rfl⟩

/-- Of two children under one number only one is kept, and the other is missed at the end. -/
example : after? 6 [.enter ⟨0, "a", [], none, none,
    [⟨1, "b", [], none, none, []⟩, ⟨1, "c", [], none, none, []⟩]⟩] [] = none := rfl

end Element

end CutsceneCatalog
