import CutsceneCatalog.Element.Field

/-!
# Editor styles

How the node of an instruction looks in an editor that shows a cutscene as a graph.
-/

namespace CutsceneCatalog

/-- The look of an instruction's node. -/
structure EditorStyle where
  /-- The place among the nodes of one category. -/
  priority : Int
  /-- The least width in pixels. -/
  minWidth : Int
  mainColor : Color
  textColor : Color
deriving DecidableEq, Repr

/-- The look of a node that nothing is said about. -/
def EditorStyle.standard : EditorStyle := ⟨0, 128, .middleGray, .white⟩

/-- Reads a style; what is missing or malformed is standard. -/
def EditorStyle.ofElement (e : Element) : EditorStyle where
  priority := e.intField "priority" EditorStyle.standard.priority
  minWidth := e.intField "minWidth" EditorStyle.standard.minWidth
  mainColor := e.colorField "mainColor" EditorStyle.standard.mainColor
  textColor := e.colorField "textColor" EditorStyle.standard.textColor

end CutsceneCatalog
