import CutsceneCatalog.Markup.Reading

/-!
# Document types

The declarations of a document type that stands in the document itself.  Two of them matter for what
a document says: general entities, whose replacement text a reference stands for, and attribute
lists, which give attributes default values and tell which values have their spaces collapsed.
Element and notation declarations are only checked.  Nothing outside the document is ever read: an
external entity is declared but cannot be referred to.

Replacement text may refer to other entities, but never to one that is being replaced;
`DocType.replaced` therefore recurses on the number of entities that may still be opened.
-/

namespace CutsceneCatalog
namespace Markup

/-- What a general entity stands for. -/
inductive Entity
  | internal (replacement : List Char)
  | external
deriving DecidableEq, Repr

/-- One attribute of an attribute list declaration. -/
structure AttributeRule where
  element : QName
  key : QName
  /-- The value is plain text; otherwise its spaces are collapsed. -/
  plain : Bool
  fallback : Option (List Char)
deriving Repr

/-- What is known of a document's type. -/
structure DocType where
  /-- The declared entities, the first declaration of a name first. -/
  entities : List (String × Entity)
  rules : List AttributeRule
  /-- The document declares itself to stand alone. -/
  standalone : Bool
  /-- Some declarations are elsewhere, so that an unknown entity need not be an error. -/
  incomplete : Bool
  /-- Declarations still count: they stop counting after a reference to declarations that were not
  read. -/
  heeded : Bool
deriving Repr

namespace DocType

/-- A document without a document type. -/
def empty (standalone : Bool) : DocType := ⟨[], [], standalone, false, true⟩

/-- What an entity stands for. -/
def entity? (doc : DocType) (name : String) : Option Entity := doc.entities.lookup name

/-- Declares an entity, unless one of this name is declared. -/
def declare (doc : DocType) (name : List Char) (entity : Entity) : DocType :=
  if doc.heeded && (predefined? name).isNone then
    { doc with entities := doc.entities ++ [(String.ofList name, entity)] }
  else doc

/-- An unknown entity in a value is left out instead of being an error. -/
def lenient (doc : DocType) : Bool := doc.incomplete && !doc.standalone

/-! ## Values -/

/-- A value whose entities are replaced by `replaced`: literal white space becomes a space each. -/
def valueOf? (replaced : String → Option (List Char)) (pieces : List Piece) :
    Option (List Char) := do
  let parts ← pieces.mapM fun piece =>
    match piece with
    | .char c => some [if isSpace c then ' ' else c]
    | .charRef c => some [c]
    | .entity name => replaced name
  return parts.flatten

/-- What an entity is replaced by in a value; `opened` are the entities being replaced. -/
def replaced (doc : DocType) : (depth : Nat) → (opened : List String) → String → Option (List Char)
  | 0, _, _ => none
  | depth + 1, opened, name =>
      match doc.entity? name with
      | none => if doc.lenient then some [] else none
      | some .external => none
      | some (.internal text) =>
          if name ∈ opened then none
          else do
            let pieces ← piecesOf? text
            valueOf? (doc.replaced depth (name :: opened)) pieces

/-- The value that pieces write. -/
def value? (doc : DocType) (pieces : List Piece) : Option (List Char) :=
  valueOf? (doc.replaced (doc.entities.length + 1) []) pieces

/-- A value without spaces at its ends and with single spaces inside. -/
def collapse (value : List Char) : List Char :=
  let words := (value.splitBy fun a b => a != ' ' && b != ' ').filter fun word => !word.contains ' '
  List.intercalate [' '] words

/-! ## Declarations -/

/-- Reads the address of something outside the document. -/
def externalAddress? : Reading Bool := do
  if ← accept "SYSTEM" then
    someSpace
    let _ ← quoted
    return true
  else if ← accept "PUBLIC" then
    someSpace
    let _ ← quoted
    someSpace
    let _ ← quoted
    return true
  else return false

/-- The replacement text that a literal writes: character references are replaced, others are kept
as they are. -/
def replacementOf? : (fuel : Nat) → (read : List Char) → List Char → Option (List Char)
  | _, read, [] => some read.reverse
  | 0, _, _ :: _ => none
  | _ + 1, _, '%' :: _ => none
  | fuel + 1, read, '&' :: '#' :: rest => do
      let (c, rest) ← numericReference rest
      replacementOf? fuel (c :: read) rest
  | fuel + 1, read, '&' :: rest => do
      let (target, rest) ← name rest
      let rest ← Text.afterWord? [';'] rest
      replacementOf? fuel (';' :: (target.reverse ++ '&' :: read)) rest
  | fuel + 1, read, c :: rest => replacementOf? fuel (c :: read) rest

/-- The replacement text of a declaration that counts; the literal of any other declaration is not
looked into. -/
def literalText? (doc : DocType) (literal : List Char) : Option (List Char) :=
  if doc.heeded then replacementOf? literal.length [] literal else some []

/-- Reads the rest of the declaration of a parameter entity, which nothing can refer to. -/
def parameterEntity (doc : DocType) : Reading Unit := do
  someSpace
  let _ ← name
  someSpace
  unless ← externalAddress? do
    let literal ← quoted
    let _ ← liftM (doc.literalText? literal)
  let _ ← spaces
  expect ">"

/-- Reads the rest of the declaration of a general entity. -/
def generalEntity (doc : DocType) : Reading DocType := do
  let target ← name
  someSpace
  if ← externalAddress? then
    if ← spaces then
      if ← accept "NDATA" then
        someSpace
        let _ ← name
        let _ ← spaces
    expect ">"
    return doc.declare target .external
  else
    let literal ← quoted
    let text ← liftM (doc.literalText? literal)
    let _ ← spaces
    expect ">"
    return doc.declare target (.internal text)

/-- Reads the rest of an entity declaration. -/
def entityDeclaration (doc : DocType) : Reading DocType := do
  someSpace
  if ← accept "%" then
    doc.parameterEntity
    return doc
  else doc.generalEntity

/-- Reads the sign that tells how often a part of an element's content may occur. -/
def occurrence : Reading Unit := do
  unless ← accept "?" do
    unless ← accept "*" do
      let _ ← accept "+"

/-- Reads the rest of a group of parts, divided by one of the two separators throughout. -/
def group : (fuel : Nat) → (separator : Option String) → Reading Unit
  | 0, _ => failure
  | fuel + 1, separator => do
      let _ ← spaces
      if ← accept "(" then group fuel none
      else do
        let _ ← qualifiedName
        occurrence
      let _ ← spaces
      if ← accept ")" then occurrence
      else match separator with
        | some word => do
            expect word
            group fuel separator
        | none => do
            if ← accept "|" then group fuel (some "|")
            else do
              expect ","
              group fuel (some ",")

/-- Reads the rest of a list of names around a separator, up to the bracket that ends it; `true` if
there was one. -/
def alternatives (item : Reading Unit) : (fuel : Nat) → Reading Bool
  | 0 => failure
  | fuel + 1 => do
      let _ ← spaces
      if ← accept ")" then return false
      else do
        expect "|"
        let _ ← spaces
        item
        let _ ← alternatives item fuel
        return true

/-- Reads the content of an element declaration. -/
def contentModel : Reading Unit := do
  if ← accept "EMPTY" then return ()
  else if ← accept "ANY" then return ()
  else do
    expect "("
    let _ ← spaces
    let fuel := (← get).length
    if ← accept "#PCDATA" then
      let several ← alternatives (qualifiedName *> pure ()) fuel
      if several then expect "*"
      else
        let _ ← accept "*"
    else group fuel none

/-- Reads the rest of an element declaration. -/
def elementDeclaration : Reading Unit := do
  someSpace
  let _ ← qualifiedName
  someSpace
  contentModel
  let _ ← spaces
  expect ">"

/-- Reads the list of tokens that enumerates an attribute's values. -/
def enumeration (item : Reading Unit) : Reading Unit := do
  expect "("
  let _ ← spaces
  item
  let fuel := (← get).length
  let _ ← alternatives item fuel

/-- Reads the type of an attribute, and tells whether its values are plain text. -/
def attributeType : Reading Bool := do
  if (← get).head? = some '(' then
    enumeration (nameToken *> pure ())
    return false
  else do
    let word ← name
    match String.ofList word with
    | "CDATA" => return true
    | "ID" | "IDREF" | "IDREFS" | "ENTITY" | "ENTITIES" | "NMTOKEN" | "NMTOKENS" => return false
    | "NOTATION" =>
        someSpace
        enumeration (name *> pure ())
        return false
    | _ => failure

/-- Reads the default of an attribute. -/
def attributeDefault (doc : DocType) (plain : Bool) : Reading (Option (List Char)) := do
  if ← accept "#REQUIRED" then return none
  else if ← accept "#IMPLIED" then return none
  else do
    if ← accept "#FIXED" then someSpace
    let literal ← quoted
    if doc.heeded then
      let pieces ← liftM (piecesOf? literal)
      let value ← liftM (doc.value? pieces)
      return some (if plain then value else collapse value)
    else return none

/-- Reads the attributes of an attribute list, up to its end. -/
def attributeRules (element : QName) : (fuel : Nat) → DocType → Reading DocType
  | 0, _ => failure
  | fuel + 1, doc => do
      let blank ← spaces
      if ← accept ">" then return doc
      else do
        unless blank do failure
        let key ← qualifiedName
        someSpace
        let plain ← attributeType
        someSpace
        let fallback ← doc.attributeDefault plain
        let rule : AttributeRule := ⟨element, key, plain, fallback⟩
        attributeRules element fuel
          (if doc.heeded then { doc with rules := doc.rules ++ [rule] } else doc)

/-- Reads the rest of an attribute list declaration. -/
def attributeList (doc : DocType) : Reading DocType := do
  someSpace
  let element ← qualifiedName
  let fuel := (← get).length
  attributeRules element fuel doc

/-- Reads the rest of a notation declaration. -/
def notationDeclaration : Reading Unit := do
  someSpace
  let _ ← name
  someSpace
  if ← accept "SYSTEM" then
    someSpace
    let _ ← quoted
  else
    expect "PUBLIC"
    someSpace
    let _ ← quoted
    if ← spaces then
      unless (← get).head? = some '>' do
        let _ ← quoted
  let _ ← spaces
  expect ">"

/-- Reads the declarations up to the bracket that ends them. -/
def declarations : (fuel : Nat) → DocType → Reading DocType
  | 0, _ => failure
  | fuel + 1, doc => do
      let _ ← spaces
      if ← accept "]" then return doc
      else if ← accept "%" then
        let _ ← name
        expect ";"
        declarations fuel { doc with incomplete := true, heeded := doc.standalone }
      else if ← accept "<!--" then
        comment
        declarations fuel doc
      else if ← accept "<?" then
        instruction
        declarations fuel doc
      else if ← accept "<!ENTITY" then
        let doc ← doc.entityDeclaration
        declarations fuel doc
      else if ← accept "<!ATTLIST" then
        let doc ← doc.attributeList
        declarations fuel doc
      else if ← accept "<!ELEMENT" then
        elementDeclaration
        declarations fuel doc
      else do
        expect "<!NOTATION"
        notationDeclaration
        declarations fuel doc

/-- Reads the rest of a document type. -/
def read (standalone : Bool) : Reading DocType := do
  someSpace
  let _ ← qualifiedName
  let doc := DocType.empty standalone
  let elsewhere ← if ← spaces then externalAddress? else pure false
  let _ ← spaces
  let fuel := (← get).length
  let doc ←
    if ← accept "[" then declarations fuel { doc with incomplete := elsewhere } else pure doc
  let _ ← spaces
  expect ">"
  return { doc with incomplete := doc.incomplete || elsewhere }

end DocType

end Markup
end CutsceneCatalog
