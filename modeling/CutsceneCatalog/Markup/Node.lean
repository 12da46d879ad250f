import CutsceneCatalog.Markup.Namespace

/-!
# Document trees

A document as a tree: a node keeps the text before its first child as its `text`, and the text after
its end tag as its `tail`.  `Node.ofEvents?` builds the tree with a stack of open elements.  Nodes
are numbered in the order of their start tags, so every node of a document has an `id` of its own.
-/

namespace CutsceneCatalog
namespace Markup

/-- An element of a document, with the text around its children. -/
structure Node where
  id : Nat
  name : String
  attributes : List (String × String)
  /-- The text before the first child. -/
  text : Option String
  /-- The text between the end of this element and the next tag. -/
  tail : Option String
  children : List Node
deriving Repr

/-- An element whose end tag has not been read; its children stand last first. -/
structure OpenNode where
  tag : QName
  scope : Scope
  node : Node
deriving Repr

/-- The part of a tree that has been read. -/
structure Growth where
  /-- The number of nodes begun so far. -/
  count : Nat
  /-- The text read since the last tag, last character first. -/
  pending : List Char
  /-- The open elements, innermost first. -/
  opened : List OpenNode
  root : Option Node
deriving Repr

namespace Growth

/-- Nothing read yet. -/
def empty : Growth := ⟨0, [], [], none⟩

/-- Gives a text to a node: to its last child, or to the node itself if it has no child. -/
def addText (node : Node) (cs : List Char) : Node :=
  if cs.isEmpty then node
  else match node.children with
    | [] => { node with text := some (String.ofList cs) }
    | child :: rest =>
        { node with children := { child with tail := some (String.ofList cs) } :: rest }

/-- Gives a child to an open element, behind the children it has. -/
def addChild (parent : OpenNode) (child : Node) : OpenNode :=
  { parent with node := { parent.node with children := child :: parent.node.children } }

/-- Gives the text read since the last tag to the innermost open element. -/
def settle (growth : Growth) : Growth :=
  match growth.opened with
  | [] => { growth with pending := [] }
  | top :: rest =>
      let node := addText top.node growth.pending.reverse
      { growth with pending := [], opened := { top with node := node } :: rest }

/-- The scope of the innermost open element. -/
def scope (growth : Growth) : Scope :=
  match growth.opened with
  | [] => .outermost
  | top :: _ => top.scope

/-- Grows by one event: an end tag closes the element that is open, and names it as its start tag
did. -/
def grow? (growth : Growth) : Event → Option Growth
  | .text cs => some { growth with pending := cs.reverse ++ growth.pending }
  | .enter tag attributes => do
      let scope ← growth.scope.enter? attributes
      let name ← scope.elementName? tag
      let attributes ← scope.attributes? attributes
      let growth := growth.settle
      let node : Node := ⟨growth.count, name, attributes, none, none, []⟩
      let opened := ⟨tag, scope, node⟩ :: growth.opened
      return { growth with count := growth.count + 1, opened := opened }
  | .leave tag =>
      let growth := growth.settle
      match growth.opened with
      | [] => none
      | top :: rest =>
          if top.tag = tag then
            let node := { top.node with children := top.node.children.reverse }
            match rest with
            | [] => some { growth with opened := [], root := some node }
            | parent :: outer => some { growth with opened := addChild parent node :: outer }
          else none

end Growth

/-- The tree that events describe. -/
def Node.ofEvents? (events : List Event) : Option Node := do
  let growth ← events.foldlM Growth.grow? Growth.empty
  growth.root

end Markup
end CutsceneCatalog
