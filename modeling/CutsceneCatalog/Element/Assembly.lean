import CutsceneCatalog.Element
import CutsceneCatalog.Markup.Document

/-!
# Assembling elements

Turning a document tree into an element, children before parents.  `Element.ofNode` says what is to
be built, by recursion on the tree; its text is the node's text followed by each child's text and
tail.  `Element.assemble?` builds it with a list of steps still to be made and the elements built so
far, so that the depth of a document does not matter: a node is first opened, which puts its
children in front of it, and finished when they are built.  It fails where a node is finished before
its children, or when anything but the root is left at the end.
-/

namespace CutsceneCatalog

open Markup (Node)

mutual

/-- The number of nodes of a tree. -/
def nodeCount : Node → Nat
  | ⟨_, _, _, _, _, children⟩ => 1 + nodeCounts children

/-- The number of nodes of several trees. -/
def nodeCounts : List Node → Nat
  | [] => 0
  | node :: rest => nodeCount node + nodeCounts rest

end

namespace Element

/-- The text of an element: its own first text, then each child's text and the text after it. -/
def joinText (text : Option String) (children : List (Element × Option String)) : String :=
  text.getD "" ++ String.join (children.map fun (child, tail) => child.innerText ++ tail.getD "")

mutual

/-- The element that a tree stands for. -/
def ofNode : Node → Element
  | ⟨_, name, attributes, text, _, children⟩ =>
      let built := ofNodes children
      ⟨name, joinText text built, attributes, built.map Prod.fst⟩

/-- The elements that trees stand for, each with the text after it. -/
def ofNodes : List Node → List (Element × Option String)
  | [] => []
  | node :: rest => (ofNode node, node.tail) :: ofNodes rest

end

/-- A step of the assembly that is still to be made. -/
inductive Step
  | enter (node : Node)
  | finish (node : Node)

/-- How many steps a step leads to, itself included. -/
def Step.weight : Step → Nat
  | .enter node => 2 * nodeCount node
  | .finish _ => 1

/-- The elements built so far, by the number of their node. -/
abbrev Built := List (Nat × Element)

/-- Puts an element under the number of its node, in place of one that is there. -/
def putBuilt (id : Nat) (element : Element) (built : Built) : Built :=
  (id, element) :: built.filter fun (key, _) => key != id

/-- Takes one element out of those built. -/
def takeBuilt? (id : Nat) : Built → Option (Element × Built)
  | [] => none
  | (key, element) :: rest =>
      if key = id then some (element, rest)
      else (takeBuilt? id rest).map fun (found, others) => (found, (key, element) :: others)

/-- Takes the elements of several nodes out of those built, in order. -/
def takeAll? : List Node → Built → Option (List (Element × Option String) × Built)
  | [], built => some ([], built)
  | node :: rest, built => do
      let (element, built) ← takeBuilt? node.id built
      let (elements, built) ← takeAll? rest built
      return ((element, node.tail) :: elements, built)

/-- Builds the element of a node whose children are built. -/
def finish? (node : Node) (built : Built) : Option Built := do
  let (children, built) ← takeAll? node.children built
  let text := joinText node.text children
  return putBuilt node.id ⟨node.name, text, node.attributes, children.map Prod.fst⟩ built

/-- The steps of opening the children of a node, the last child first. -/
def openAll (children : List Node) : List Step := (children.map Step.enter).reverse

/-- How many steps several steps lead to. -/
def weights : List Step → Nat
  | [] => 0
  | step :: rest => step.weight + weights rest

theorem weights_append (steps more : List Step) :
    weights (steps ++ more) = weights steps + weights more := by
  induction steps with
  | nil => simp [weights]
  | cons step rest ih => simp only [List.cons_append, weights, ih, Nat.add_assoc]

theorem weights_openAll (children : List Node) :
    weights (openAll children) = 2 * nodeCounts children := by
  induction children with
  | nil => rfl
  | cons node rest ih =>
    have hopen : openAll (node :: rest) = openAll rest ++ [.enter node] := by simp [openAll]
    rw [hopen, weights_append, ih]
    simp only [weights, Step.weight, nodeCounts]
    omega

theorem nodeCount_eq (node : Node) : nodeCount node = 1 + nodeCounts node.children := by
  cases node
  simp [nodeCount]

/-- Makes one step after the other. -/
def work? : List Step → Built → Option Built
  | [], built => some built
  | .enter node :: rest, built => work? (openAll node.children ++ .finish node :: rest) built
  | .finish node :: rest, built => (finish? node built).bind (work? rest)
termination_by steps => weights steps
decreasing_by
  · have h := weights_openAll node.children
    have count := nodeCount_eq node
    simp only [weights_append, weights, Step.weight]
    omega
  · simp [weights, Step.weight]

/-- The element that a tree stands for, if its nodes can be told apart. -/
def assemble? (root : Node) : Option Element :=
  match work? [.enter root] [] with
  | some [(id, element)] => if id = root.id then some element else none
  | _ => none

/-- The root element of a document. -/
def ofSource (codecs : Markup.Codecs) (source : Markup.Source) : Except Markup.Fault Element := do
  let root ← Node.ofSource codecs source
  Markup.wellFormed (assemble? root)

end Element

end CutsceneCatalog
