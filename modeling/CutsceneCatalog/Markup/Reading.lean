import CutsceneCatalog.Markup.NameClass
import CutsceneCatalog.Text.Digits
import CutsceneCatalog.Text.Unicode
import CutsceneCatalog.Text.Word

/-!
# Reading steps

The small steps of which the grammar of a document is made: a fixed word, white space, a name, a
qualified name, text up to a stop, a literal in quotes, a reference.  A step takes the text that is
left and either returns what it read together with the rest, or fails; a document in which a step
fails is not well formed, and no more is told about it.
-/

namespace CutsceneCatalog
namespace Markup

open Text (afterWord? splitAtWord)

/-- A step of reading: it consumes a part of the text that is left, or fails. -/
abbrev Reading := StateT (List Char) Option

/-- Reads a fixed word. -/
def expect (word : String) : Reading Unit := fun cs =>
  (afterWord? word.toList cs).map ((), ·)

/-- Reads a fixed word if it stands here, and tells whether it did. -/
def accept (word : String) : Reading Bool := fun cs =>
  match afterWord? word.toList cs with
  | some rest => some (true, rest)
  | none => some (false, cs)

/-- Reads the longest run of characters of a class. -/
def run (p : Char → Bool) : Reading (List Char) := fun cs => some (cs.span p)

/-- Reads white space, and tells whether there was any. -/
def spaces : Reading Bool := do
  let blank ← run isSpace
  return !blank.isEmpty

/-- Reads white space of one character at least. -/
def someSpace : Reading Unit := do
  unless ← spaces do failure

/-- Reads a name without a colon. -/
def name : Reading (List Char) := fun cs =>
  match cs with
  | c :: _ => if isNameStart c then some (cs.span isNameChar) else none
  | [] => none

/-- Reads a run of name characters of any kind. -/
def nameToken : Reading (List Char) := do
  let token ← run fun c => isNameChar c || c == ':'
  if token.isEmpty then failure else return token

/-- A name in two parts, of which the first stands for a namespace. -/
structure QName where
  space : Option String
  base : String
deriving DecidableEq, Repr

/-- Reads a qualified name: one name, or two of them around one colon. -/
def qualifiedName : Reading QName := do
  let first ← name
  if ← accept ":" then
    let second ← name
    return ⟨some (String.ofList first), String.ofList second⟩
  else return ⟨none, String.ofList first⟩

/-- Reads the text before a stop, and the stop. -/
def upTo (stop : String) : Reading (List Char) := splitAtWord stop.toList []

/-- Reads what stands between two quotation marks of one kind. -/
def quoted : Reading (List Char) := do
  if ← accept "\"" then upTo "\""
  else do
    expect "'"
    upTo "'"

/-- Reads the rest of a comment: two hyphens may only end it. -/
def comment : Reading Unit := do
  let _ ← upTo "--"
  expect ">"

/-- Reads the rest of a processing instruction; the target `xml`, in any letter case, is
reserved. -/
def instruction : Reading Unit := do
  let target ← name
  if target.map Char.toLower = ['x', 'm', 'l'] then failure
  unless ← accept "?>" do
    someSpace
    let _ ← upTo "?>"

/-! ## References -/

/-- A part of a text with references in it. -/
inductive Piece
  | char (c : Char)
  /-- A character reference, or a reference to one of the five predefined entities. -/
  | charRef (c : Char)
  | entity (name : String)
deriving DecidableEq, Repr

/-- The characters that need no declaration to be referred to by name. -/
def predefined? : List Char → Option Char
  | ['l', 't'] => some '<'
  | ['g', 't'] => some '>'
  | ['a', 'm', 'p'] => some '&'
  | ['q', 'u', 'o', 't'] => some '"'
  | ['a', 'p', 'o', 's'] => some '\''
  | _ => none

/-- The character that a reference by number stands for, if a document may hold it. -/
def legalChar? (n : Nat) : Option Char :=
  (Text.charOf? n).filter isLegal

/-- Reads the number of a character, in decimal digits or, after an `x`, in hexadecimal ones. -/
def characterNumber : Reading Nat := do
  if ← accept "x" then
    let digits ← run fun c => (Text.hexValue? c).isSome
    if digits.isEmpty then failure else liftM (Text.hexRun? digits)
  else
    let digits ← run Char.isDigit
    if digits.isEmpty then failure else return Text.decimalValue digits

/-- Reads the rest of a reference by number. -/
def numericReference : Reading Char := do
  let number ← characterNumber
  expect ";"
  liftM (legalChar? number)

/-- Reads the rest of a reference. -/
def reference : Reading Piece := do
  if ← accept "#" then return .charRef (← numericReference)
  else do
    let target ← name
    expect ";"
    match predefined? target with
    | some c => return .charRef c
    | none => return .entity (String.ofList target)

/-- Splits a value into its pieces; a value holds no `<`. -/
def valuePieces : (fuel : Nat) → (read : List Piece) → List Char → Option (List Piece)
  | _, read, [] => some read.reverse
  | 0, _, _ :: _ => none
  | _ + 1, _, '<' :: _ => none
  | fuel + 1, read, '&' :: rest => do
      let (piece, rest) ← reference rest
      valuePieces fuel (piece :: read) rest
  | fuel + 1, read, c :: rest => valuePieces fuel (.char c :: read) rest

/-- The pieces of a value. -/
def piecesOf? (value : List Char) : Option (List Piece) :=
  valuePieces value.length [] value

end Markup
end CutsceneCatalog
