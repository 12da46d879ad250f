import CutsceneCatalog.Markup.DocType
import CutsceneCatalog.Markup.Token

/-!
# Events

What a document's content says once its references are replaced: elements open and close, and text
stands between.  Replacement text is content of its own, so every element that it opens it also
closes.
-/

namespace CutsceneCatalog
namespace Markup

/-- A part of a document's content, free of references. -/
inductive Event
  | enter (name : QName) (attributes : List (QName × String))
  | text (cs : List Char)
  | leave (name : QName)
deriving Repr

namespace Event

/-- The attributes of an element, with their values: those of its tag, then the defaults of its
type. -/
def attributes? (doc : DocType) (element : QName) (written : List (QName × List Piece)) :
    Option (List (QName × String)) := do
  let rules := doc.rules.filter fun rule => rule.element = element
  let given ← written.mapM fun (key, pieces) => do
    let value ← doc.value? pieces
    let plain := match rules.find? (·.key = key) with
      | some rule => rule.plain
      | none => true
    return (key, String.ofList (if plain then value else DocType.collapse value))
  let added := rules.foldl (fun (all : List (QName × Option (List Char))) rule =>
    if all.any (·.1 = rule.key) then all else all ++ [(rule.key, rule.fallback)]) []
  let defaults := added.filterMap fun (key, fallback) =>
    if written.any (·.1 = key) then none else fallback.map fun value => (key, String.ofList value)
  return given ++ defaults

/-- The events of one token; `replaced` tells what an entity is replaced by. -/
def ofToken? (doc : DocType) (replaced : String → Option (List Event)) : Token → Option (List Event)
  | .text cs => some [.text cs]
  | .charRef c => some [.text [c]]
  | .verbatim cs => some [.text cs]
  | .stop name => some [.leave name]
  | .start name written => do
      let attributes ← attributes? doc name written
      return [.enter name attributes]
  | .entity name => replaced name

/-- The events of tokens. -/
def ofTokens? (doc : DocType) (replaced : String → Option (List Event)) (tokens : List Token) :
    Option (List Event) := do
  let events ← tokens.mapM (ofToken? doc replaced)
  return events.flatten

/-- The events that an entity is replaced by; `opened` are the entities being replaced. -/
def replaced? (doc : DocType) :
    (depth : Nat) → (opened : List String) → String → Option (List Event)
  | 0, _, _ => none
  | depth + 1, opened, name =>
      match doc.entity? name with
      | some (.internal replacement) =>
          if name ∈ opened then none
          else do
            let tokens ← Token.list? replacement
            if Token.balanced 0 tokens then
              ofTokens? doc (replaced? doc depth (name :: opened)) tokens
            else none
      | _ => none

/-- The events of a document's content. -/
def list? (doc : DocType) (tokens : List Token) : Option (List Event) :=
  ofTokens? doc (replaced? doc (doc.entities.length + 1) []) tokens

end Event

end Markup
end CutsceneCatalog
