import CutsceneCatalog.EditorStyle
import CutsceneCatalog.Icon
import CutsceneCatalog.Implementation
import CutsceneCatalog.Parameter
import CutsceneCatalog.Rule

/-!
# Instruction definitions

What a document defines: an instruction with its parameters, its code, its look and its compile
rules.  The children of the root are taken in document order.  Parameters and rules add up; of
everything else the last one counts; a child with an unknown name is an error, as is whatever is
wrong with a rule.
-/

namespace CutsceneCatalog

/-- A part of a preview.  Previews are not read from documents yet, so there are no terms. -/
inductive PreviewTerm
deriving DecidableEq, Repr

/-- The definition of an instruction. -/
structure Definition where
  opcode : String
  parameters : List Parameter
  implementation : String
  icon : Option Icon
  displayName : String
  description : String
  category : String
  editorStyle : EditorStyle
  hideDefaultOutput : Bool
  previewTerms : List PreviewTerm
  rules : List Rule
deriving Repr

/-- What surrounds the reading of a definition. -/
structure Surroundings where
  files : Files
  host : Host
  settings : Settings
  /-- The folder that icons are looked for in. -/
  folder : Location

namespace Definition

/-- The definition that an empty document gives. -/
def empty : Definition := ⟨"", [], "", none, "", "", "", .standard, false, [], []⟩

/-- The first parameter of an identifier. -/
def parameter? (definition : Definition) (id : String) : Option Parameter :=
  definition.parameters.find? fun p => p.heading.id == id

/-- Takes one child of the root into a definition. -/
def extend (around : Surroundings) (file : Option String) (definition : Definition)
    (e : Element) : Except ImportError Definition :=
  match Entry.ofTag? e.name with
  | none => .error ⟨.elementNotAllowed e.name, file⟩
  | some .opcode => .ok { definition with opcode := e.innerText }
  | some (.parameter kind) =>
      .ok { definition with parameters := definition.parameters ++ [.ofKind kind e] }
  | some .implementation => .ok { definition with implementation := implementationText e.innerText }
  | some .icon =>
      let icon := Icon.load? around.files around.host around.settings around.folder e.innerText
      .ok { definition with icon := icon }
  | some .displayName => .ok { definition with displayName := e.innerText }
  | some .description => .ok { definition with description := e.innerText }
  | some .category => .ok { definition with category := e.innerText }
  | some .editorStyle => .ok { definition with editorStyle := .ofElement e }
  | some .hideDefaultOutput => .ok { definition with hideDefaultOutput := true }
  | some .previewTerm => .ok definition
  | some (.rule _) => do
      match ← Rule.ofElement around.settings.maxRuleDepth file 1 e with
      | some rule => return { definition with rules := definition.rules ++ [rule] }
      | none => return definition

/-- The definition that the root element of the document in a file gives. -/
def read (around : Surroundings) (file : Option String) (root : Element) :
    Except ImportError Definition :=
  root.children.foldlM (extend around file) empty

end Definition

end CutsceneCatalog
