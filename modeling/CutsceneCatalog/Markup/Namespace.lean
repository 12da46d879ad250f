import CutsceneCatalog.Markup.Event

/-!
# Namespaces

Attributes named `xmlns` bind namespaces for their element and everything inside it.  `Scope.enter?`
takes the bindings of one element, and `Scope.elementName?` and `Scope.attributeName?` write an
expanded name: `{uri}local`, or the plain name where no namespace applies.  An unqualified attribute
is in no namespace.
-/

namespace CutsceneCatalog
namespace Markup

/-- The namespace of the built-in `xml` names. -/
def xmlNamespace : String := "http://www.w3.org/XML/1998/namespace"

/-- The namespace of namespace declarations, to which nothing may be bound. -/
def xmlnsNamespace : String := "http://www.w3.org/2000/xmlns/"

/-- The namespaces in scope, innermost first; the nameless one applies to unqualified elements. -/
structure Scope where
  bindings : List (Option String × String)
deriving Repr

namespace Scope

/-- The scope outside the root element. -/
def outermost : Scope := ⟨[(some "xml", xmlNamespace)]⟩

/-- The binding that an attribute makes, if it makes one. -/
def declared? (key : QName) : Option (Option String) :=
  match key with
  | ⟨none, "xmlns"⟩ => some none
  | ⟨some "xmlns", base⟩ => some (some base)
  | _ => none

/-- Whether a name may be bound to a namespace: the reserved names and namespaces belong to each
other only, and only the nameless binding can be taken back. -/
def permits (label : Option String) (uri : String) : Bool :=
  !uri.toList.contains '\x7d'
    && uri != xmlnsNamespace
    && (label == some "xml") == (uri == xmlNamespace)
    && label != some "xmlns"
    && (label.isNone || uri != "")

/-- The scope inside an element with the given attributes. -/
def enter? (scope : Scope) (attributes : List (QName × String)) : Option Scope :=
  attributes.foldlM (fun scope (key, uri) =>
    match declared? key with
    | none => some scope
    | some label => if permits label uri then some ⟨(label, uri) :: scope.bindings⟩ else none) scope

/-- A name inside a namespace. -/
def expand (uri base : String) : String := "\x7b" ++ uri ++ "\x7d" ++ base

/-- The expanded name of an element. -/
def elementName? (scope : Scope) (name : QName) : Option String :=
  match name.space, scope.bindings.lookup name.space with
  | none, none => some name.base
  | none, some uri => some (if uri = "" then name.base else expand uri name.base)
  | some _, found => found.map fun uri => expand uri name.base

/-- The expanded name of an attribute. -/
def attributeName? (scope : Scope) (key : QName) : Option String :=
  match key.space with
  | none => some key.base
  | some _ => scope.elementName? key

/-- The attributes of an element under their expanded names, which are distinct; namespace
declarations are none. -/
def attributes? (scope : Scope) (attributes : List (QName × String)) :
    Option (List (String × String)) := do
  let plain := attributes.filter fun (key, _) => (declared? key).isNone
  let expanded ← plain.mapM fun (key, value) => do
    let expandedName ← scope.attributeName? key
    return (expandedName, value)
  if (expanded.map Prod.fst).Nodup then return expanded else failure

end Scope

end Markup
end CutsceneCatalog
