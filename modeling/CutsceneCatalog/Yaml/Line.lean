import CutsceneCatalog.Text.Lines
import CutsceneCatalog.Text.Split

/-!
# Lines of YAML

A document is read line by line; a line that has been read in part stands in front of the lines that
are left.  Only spaces indent a line, and a comment begins with a number sign at the start of what
is left of a line.
-/

namespace CutsceneCatalog
namespace Yaml

/-- What is left of a line, and the column it starts in. -/
structure Line where
  column : Nat
  text : List Char
deriving Repr

/-- The lines that are left. -/
abbrev Lines := List Line

namespace Line

/-- The line without the spaces in front. -/
def trimStart (line : Line) : Line :=
  let (blank, rest) := line.text.span (· == ' ')
  ⟨line.column + blank.length, rest⟩

/-- The line after some characters and the spaces after them. -/
def after (line : Line) (count : Nat) : Line :=
  trimStart ⟨line.column + count, line.text.drop count⟩

/-- Nothing is left of the line but a comment. -/
def isDone (line : Line) : Bool :=
  match line.trimStart.text with
  | [] => true
  | c :: _ => c == '#'

/-- A mark between documents: three hyphens or three points in the first column. -/
def isMark (line : Line) (mark : Char) : Bool :=
  line.column == 0 &&
    match line.text with
    | a :: b :: c :: rest =>
        a == mark && b == mark && c == mark && (rest.head?.all fun d => d == ' ' || d == '\t')
    | _ => false

/-- A mark of either kind. -/
def isAnyMark (line : Line) : Bool := line.isMark '-' || line.isMark '.'

/-- An entry of a list: a hyphen that a space follows, or nothing. -/
def isEntry (line : Line) : Bool :=
  match line.text with
  | ['-'] => true
  | '-' :: c :: _ => c == ' '
  | _ => false

end Line

/-- The lines of a text. -/
def linesOf (cs : List Char) : Lines :=
  (Text.pieces '\n' (Text.unifyBreaks cs)).map fun text => Line.trimStart ⟨0, text⟩

/-- The lines from the next one on which something stands. -/
def skipDone (lines : Lines) : Lines := lines.dropWhile Line.isDone

/-- A number of reading steps that no document of these lines needs. -/
def effort (lines : Lines) : Nat :=
  lines.foldl (fun steps line => steps + 8 * (line.text.length + 2)) 8

end Yaml
end CutsceneCatalog
