import CutsceneCatalog.Markup.Reading

/-!
# Tokens

The content of a document as a list of tokens: text, references, tags.  Comments and processing
instructions are read and leave no token.  A start tag that closes its element leaves a start and an
end token.
-/

namespace CutsceneCatalog
namespace Markup

/-- A token of a document's content. -/
inductive Token
  /-- Literal characters. -/
  | text (cs : List Char)
  | charRef (c : Char)
  | entity (name : String)
  /-- A section in which nothing is markup. -/
  | verbatim (cs : List Char)
  | start (name : QName) (attributes : List (QName × List Piece))
  | stop (name : QName)
deriving Repr

namespace Token

/-- The token of a reference. -/
def ofPiece : Piece → Token
  | .char c => .text [c]
  | .charRef c => .charRef c
  | .entity name => .entity name

/-- Reads the attributes of a start tag and its end; `true` if the tag closes its element. -/
def attributes :
    (fuel : Nat) → (read : List (QName × List Piece)) → Reading (List (QName × List Piece) × Bool)
  | 0, _ => failure
  | fuel + 1, read => do
      let blank ← spaces
      if ← accept ">" then return (read.reverse, false)
      else if ← accept "/>" then return (read.reverse, true)
      else do
        unless blank do failure
        let key ← qualifiedName
        let _ ← spaces
        expect "="
        let _ ← spaces
        let literal ← quoted
        let pieces ← liftM (piecesOf? literal)
        if read.any (·.1 = key) then failure
        attributes fuel ((key, pieces) :: read)

/-- Reads the rest of a start tag with fewer attributes than `fuel`. -/
def startTag (fuel : Nat) : Reading (List Token) := do
  let name ← qualifiedName
  let (attributes, closed) ← attributes fuel []
  return if closed then [.start name attributes, .stop name] else [.start name attributes]

/-- Reads literal text, which may not hold the stop of a literal section. -/
def literalText : Reading (List Token) := do
  let cs ← run fun c => c != '<' && c != '&'
  if (Text.splitAtWord [']', ']', '>'] [] cs).isSome then failure
  return [.text cs]

/-- Reads one item of content; `fuel` is no less than the number of characters left. -/
def item (fuel : Nat) : Reading (List Token) := do
  if ← accept "<!--" then
    comment
    return []
  else if ← accept "<![CDATA[" then return [.verbatim (← upTo "]]>")]
  else if ← accept "<?" then
    instruction
    return []
  else if ← accept "</" then
    let name ← qualifiedName
    let _ ← spaces
    expect ">"
    return [.stop name]
  else if ← accept "<" then startTag fuel
  else if ← accept "&" then return [ofPiece (← reference)]
  else literalText

/-- Reads items until the text is used up; `fuel` bounds their number. -/
def items? : (fuel : Nat) → (read : List Token) → List Char → Option (List Token)
  | _, read, [] => some read.reverse
  | 0, _, _ :: _ => none
  | fuel + 1, read, cs => do
      let (tokens, rest) ← item (fuel + 1) cs
      items? fuel (tokens.reverse ++ read) rest

/-- The tokens of content. -/
def list? (cs : List Char) : Option (List Token) := items? cs.length [] cs

/-- The change of depth after a token. -/
def step : Token → Int
  | .start .. => 1
  | .stop .. => -1
  | _ => 0

/-- Every element that is opened is closed, and none is closed that was not opened. -/
def balanced : (depth : Nat) → List Token → Bool
  | depth, [] => depth == 0
  | depth, .start .. :: rest => balanced (depth + 1) rest
  | 0, .stop .. :: _ => false
  | depth + 1, .stop .. :: rest => balanced depth rest
  | depth, _ :: rest => balanced depth rest

/-- Splits tokens after the end of the first element; `depth` is the number of open elements. -/
def splitElement? :
    (depth : Nat) → (passed : List Token) → List Token → Option (List Token × List Token)
  | _, _, [] => none
  | depth, passed, t@(.start ..) :: rest => splitElement? (depth + 1) (t :: passed) rest
  | 0, _, _ :: _ => none
  | 1, passed, t@(.stop ..) :: rest => some ((t :: passed).reverse, rest)
  | depth + 2, passed, t@(.stop ..) :: rest => splitElement? (depth + 1) (t :: passed) rest
  | depth + 1, passed, t :: rest => splitElement? (depth + 1) (t :: passed) rest

/-- Literal white space, the only token that may stand beside a root element. -/
def isBlank : Token → Bool
  | .text cs => cs.all isSpace
  | _ => false

end Token

end Markup
end CutsceneCatalog
