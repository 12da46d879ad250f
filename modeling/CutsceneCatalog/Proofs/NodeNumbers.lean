import CutsceneCatalog.Proofs.Assembly
import CutsceneCatalog.Proofs.Outcome

/-!
# The numbers of a document's nodes

Nodes are numbered by a counter while a document is read, and the numbers are what the assembly of
an element goes by.  `Growth.Numbered` is the invariant of the part of a tree that has been read:
all numbers in it are below the counter, and no two nodes share one.  One event keeps it
(`Growth.Numbered.grow?`), so it holds of the whole tree.

Hence the assembly never fails on what was read: `Element.ofSource_eq` says that the element of a
document is the one that recursion on its tree gives.
-/

namespace CutsceneCatalog

theorem forestIds_eq_flatMap (nodes : List Markup.Node) :
    forestIds nodes = nodes.flatMap nodeIds := by
  induction nodes with
  | nil => rfl
  | cons node rest ih => rw [forestIds, ih, List.flatMap_cons]

namespace Markup
namespace Growth

/-! ## One event -/

/-- The numbers of the nodes in open elements, innermost first. -/
def openIds (opened : List OpenNode) : List Nat := opened.flatMap fun o => nodeIds o.node

theorem openIds_cons (top : OpenNode) (rest : List OpenNode) :
    openIds (top :: rest) = nodeIds top.node ++ openIds rest := rfl

/-- Text changes no number. -/
theorem nodeIds_addText (node : Node) (cs : List Char) :
    nodeIds (addText node cs) = nodeIds node := by
  obtain ⟨id, name, attributes, text, tail, children⟩ := node
  unfold addText
  split
  · rfl
  · cases children with
    | nil => rfl
    | cons child rest =>
      cases child
      rfl

theorem openIds_settle (growth : Growth) :
    openIds growth.settle.opened = openIds growth.opened := by
  obtain ⟨count, pending, opened, root⟩ := growth
  cases opened with
  | nil => rfl
  | cons top rest =>
    change openIds ({ top with node := addText top.node pending.reverse } :: rest) = _
    rw [openIds_cons, openIds_cons, nodeIds_addText]

theorem count_settle (growth : Growth) : growth.settle.count = growth.count := by
  unfold settle
  split <;> rfl

/-- A closed element has the numbers that it had when it was open. -/
theorem nodeIds_close_perm (node : Node) :
    (nodeIds { node with children := node.children.reverse }).Perm (nodeIds node) := by
  simp only [nodeIds_eq, forestIds_eq_flatMap]
  exact ((List.reverse_perm node.children).flatMap_right nodeIds).cons node.id

/-- A child that is put into an open element takes its numbers with it. -/
theorem nodeIds_addChild_perm (parent : OpenNode) (child : Node) :
    (nodeIds (addChild parent child).node).Perm (nodeIds child ++ nodeIds parent.node) := by
  rw [nodeIds_eq, nodeIds_eq parent.node]
  exact List.perm_middle.symm

/-- What has been read, when all its numbers are below the counter and no two of them the same. -/
structure Numbered (growth : Growth) : Prop where
  nodup : (openIds growth.opened).Nodup
  lt_count : ∀ id ∈ openIds growth.opened, id < growth.count
  root_nodup : ∀ root, growth.root = some root → (nodeIds root).Nodup

variable {growth next : Growth}

theorem Numbered.empty : Growth.empty.Numbered := by
  constructor <;> simp [Growth.empty, openIds]

theorem Numbered.settle (h : growth.Numbered) : growth.settle.Numbered := by
  refine ⟨?_, ?_, ?_⟩
  · rw [openIds_settle]
    exact h.nodup
  · rw [openIds_settle, count_settle]
    exact h.lt_count
  · have hroot : growth.settle.root = growth.root := by
      unfold Growth.settle
      split <;> rfl
    rw [hroot]
    exact h.root_nodup

/-- Rearranged, the numbers stay distinct and below the counter. -/
theorem Numbered.of_perm (h : growth.Numbered) {opened : List OpenNode}
    (hperm : (openIds opened).Perm (openIds growth.opened)) :
    Numbered { growth with opened := opened } where
  nodup := hperm.nodup_iff.mpr h.nodup
  lt_count id hmem := h.lt_count id (hperm.mem_iff.mp hmem)
  root_nodup := h.root_nodup

/-- A new node gets the number that the counter stands at. -/
theorem Numbered.enter (h : growth.Numbered) (tag : QName) (scope : Scope) (name : String)
    (attributes : List (String × String)) :
    Numbered { growth with
      count := growth.count + 1
      opened := ⟨tag, scope, ⟨growth.count, name, attributes, none, none, []⟩⟩ ::
        growth.opened } := by
  have hids : openIds (⟨tag, scope, ⟨growth.count, name, attributes, none, none, []⟩⟩ ::
      growth.opened) = growth.count :: openIds growth.opened := rfl
  refine ⟨?_, ?_, h.root_nodup⟩
  · rw [hids, List.nodup_cons]
    refine ⟨?_, h.nodup⟩
    intro hmem
    exact absurd (h.lt_count _ hmem) (Nat.lt_irrefl _)
  · rw [hids, List.forall_mem_cons]
    refine ⟨Nat.lt_succ_self _, ?_⟩
    intro id hmem
    exact Nat.lt_succ_of_lt (h.lt_count id hmem)

/-- One event keeps the invariant. -/
theorem Numbered.grow? (h : growth.Numbered) {event : Event}
    (hstep : growth.grow? event = some next) : next.Numbered := by
  cases event with
  | text cs =>
    obtain rfl := Option.some.inj hstep
    exact ⟨h.nodup, h.lt_count, h.root_nodup⟩
  | enter tag attributes =>
    simp only [Growth.grow?, Option.bind_eq_bind, Option.bind_eq_some_iff] at hstep
    obtain ⟨scope, -, name, -, attributes, -, hnext⟩ := hstep
    obtain rfl := Option.some.inj hnext
    exact h.settle.enter tag scope name attributes
  | leave tag =>
    have hsettled := h.settle
    simp only [Growth.grow?] at hstep
    generalize growth.settle = settled at hsettled hstep
    obtain ⟨count, pending, opened, root⟩ := settled
    match opened with
    | [] => cases hstep
    | [top] =>
      simp only [Option.ite_none_right_eq_some, Option.some.injEq] at hstep
      obtain ⟨-, rfl⟩ := hstep
      refine ⟨List.nodup_nil, fun id hmem => absurd hmem List.not_mem_nil, ?_⟩
      intro node hnode
      obtain rfl := Option.some.inj hnode
      have htop : (nodeIds top.node).Nodup := (List.nodup_append'.mp hsettled.nodup).1
      exact (nodeIds_close_perm top.node).nodup_iff.mpr htop
    | top :: parent :: outer =>
      simp only [Option.ite_none_right_eq_some, Option.some.injEq] at hstep
      obtain ⟨-, rfl⟩ := hstep
      refine hsettled.of_perm ?_
      simp only [openIds_cons, ← List.append_assoc]
      refine List.Perm.append_right _ ?_
      exact (nodeIds_addChild_perm parent _).trans ((nodeIds_close_perm top.node).append_right _)

end Growth

/-! ## Documents -/

/-- No two nodes of a tree that was read from events share a number. -/
theorem Node.nodup_nodeIds_of_ofEvents? {events : List Event} {root : Node}
    (h : Node.ofEvents? events = some root) : (nodeIds root).Nodup := by
  have hrun : ∀ (events : List Event) (growth final : Growth), growth.Numbered →
      events.foldlM Growth.grow? growth = some final → final.Numbered := by
    intro events
    induction events with
    | nil =>
      intro growth final hgrowth hfinal
      obtain rfl := Option.some.inj hfinal
      exact hgrowth
    | cons event rest ih =>
      intro growth final hgrowth hfinal
      rw [List.foldlM_cons] at hfinal
      obtain ⟨next, hnext, hrest⟩ := Option.bind_eq_some_iff.mp hfinal
      exact ih next final (hgrowth.grow? hnext) hrest
  obtain ⟨final, hfinal, hroot⟩ := Option.bind_eq_some_iff.mp h
  exact (hrun events _ final Growth.Numbered.empty hfinal).root_nodup root hroot

/-- The tree of a text is read from events. -/
theorem Node.exists_events_of_ofText? {standalone : Bool} {cs : List Char} {root : Node}
    (h : Node.ofText? standalone cs = some root) : ∃ events, Node.ofEvents? events = some root := by
  unfold Node.ofText? at h
  split at h
  · cases h
  · obtain ⟨⟨doc, rest⟩, -, h⟩ := Option.bind_eq_some_iff.mp h
    obtain ⟨tokens, -, h⟩ := Option.bind_eq_some_iff.mp h
    obtain ⟨⟨inside, outside⟩, -, h⟩ := Option.bind_eq_some_iff.mp h
    dsimp only at h
    split at h
    · cases h
    · obtain ⟨events, -, hroot⟩ := Option.bind_eq_some_iff.mp h
      exact ⟨events, hroot⟩

theorem wellFormed_eq_ok_iff {α : Type} {x : Option α} {a : α} :
    wellFormed x = .ok a ↔ x = some a := by
  cases x <;> simp [wellFormed]

theorem Node.nodup_nodeIds_of_wellFormed {standalone : Bool} {cs : List Char} {root : Node}
    (h : wellFormed (Node.ofText? standalone cs) = .ok root) : (nodeIds root).Nodup := by
  obtain ⟨events, hevents⟩ := exists_events_of_ofText? (wellFormed_eq_ok_iff.mp h)
  exact nodup_nodeIds_of_ofEvents? hevents

/-- No two nodes of a document share a number. -/
theorem Node.nodup_nodeIds_of_ofSource {codecs : Codecs} {source : Source} {root : Node}
    (h : Node.ofSource codecs source = .ok root) : (nodeIds root).Nodup := by
  cases source with
  | text s =>
    obtain ⟨⟨declaration, rest⟩, -, h⟩ := bind_eq_ok_iff.mp h
    exact nodup_nodeIds_of_wellFormed h
  | bytes bs =>
    simp only [Node.ofSource] at h
    obtain ⟨⟨declaration, rest⟩, -, h⟩ := bind_eq_ok_iff.mp h
    -- Declared or not, an encoding is settled on first, and then the text is decoded.
    dsimp only at h
    split at h
    all_goals
      obtain ⟨encoding, -, h⟩ := bind_eq_ok_iff.mp h
      obtain ⟨cs, -, h⟩ := bind_eq_ok_iff.mp h
      exact nodup_nodeIds_of_wellFormed h

end Markup

/-- The element of a document is the one that recursion on its tree gives. -/
theorem Element.ofSource_eq (codecs : Markup.Codecs) (source : Markup.Source) :
    Element.ofSource codecs source =
      (Markup.Node.ofSource codecs source).map Element.ofNode := by
  unfold Element.ofSource
  cases h : Markup.Node.ofSource codecs source with
  | error fault => rfl
  | ok root =>
    have hnodup : (nodeIds root).Nodup := Markup.Node.nodup_nodeIds_of_ofSource h
    change Markup.wellFormed (assemble? root) = .ok (ofNode root)
    rw [assemble?_eq_some hnodup]
    rfl

end CutsceneCatalog
