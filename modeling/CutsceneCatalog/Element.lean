/-!
# Elements

What is kept of a document: for each element its name, its text, its attributes and its children in
order.  The text of an element is all text inside it, in document order, the text of its descendants
included.  Order is kept also among children of different names, because the order of parameters and
the last nested rule matter.
-/

namespace CutsceneCatalog

/-- An element of a document. -/
structure Element where
  name : String
  innerText : String
  attributes : List (String × String)
  children : List Element
deriving Repr

/-- What an element was asked for in vain. -/
inductive ElementError
  | noChild (element child : String)
  | noAttribute (element key : String)
deriving DecidableEq, Repr

/-- The wording of a vain question. -/
def ElementError.message : ElementError → String
  | .noChild element child => "Element '" ++ element ++ "' has no child '" ++ child ++ "'"
  | .noAttribute element key => "Element '" ++ element ++ "' has no attribute '" ++ key ++ "'"

namespace Element

/-- The first child of a name. -/
def find? (e : Element) (name : String) : Option Element :=
  e.children.find? fun child => child.name == name

/-- The first child of a name, which has to be there. -/
def child (e : Element) (name : String) : Except ElementError Element :=
  match e.find? name with
  | some found => .ok found
  | none => .error (.noChild e.name name)

/-- The value of an attribute, if it is there. -/
def attribute? (e : Element) (key : String) : Option String := e.attributes.lookup key

/-- The value of an attribute, which has to be there. -/
def attributeValue (e : Element) (key : String) : Except ElementError String :=
  match e.attribute? key with
  | some value => .ok value
  | none => .error (.noAttribute e.name key)

mutual

/-- The element and everything inside it in document order, each with its depth. -/
def outline (depth : Nat) : Element → List (Nat × Element)
  | ⟨name, innerText, attributes, children⟩ =>
      (depth, ⟨name, innerText, attributes, children⟩) :: outlines (depth + 1) children

/-- The outlines of neighbors, one after the other. -/
def outlines (depth : Nat) : List Element → List (Nat × Element)
  | [] => []
  | e :: rest => outline depth e ++ outlines depth rest

end

end Element

end CutsceneCatalog
