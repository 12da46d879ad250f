import CutsceneCatalog.Yaml.Flow

/-!
# Documents of YAML

Reading a document whose structure is shown by indentation.  `block?` reads the value that starts in
column `least` or later, and nothing else does, there is none; a mapping or list takes the lines
that start exactly in its own column.  A value on the line of its key is never a mapping or list in
block form.
-/

namespace CutsceneCatalog
namespace Yaml

/-- The key that a line begins with, and the line after its colon. -/
def keyOf? (line : Line) : Option (Value × Line) :=
  let finish (key : Value) (rest : Line) : Option (Value × Line) :=
    match rest.trimStart.text with
    | ':' :: text =>
        if text.head?.all (· == ' ') then some (key, Line.trimStart ⟨rest.column + 1, text⟩)
        else none
    | _ => none
  match line.text with
  | '\'' :: text =>
      match singleQuoted? (effort [line]) [] text [] with
      | some (cs, rest :: _) => finish (.text (String.ofList cs)) rest
      | _ => none
  | '"' :: text =>
      match doubleQuoted? (effort [line]) [] text [] with
      | some (cs, rest :: _) => finish (.text (String.ofList cs)) rest
      | _ => none
  | text =>
      if beginsPlain false text then
        let (read, rest) := plainChunk false text
        (scalarValue? read.reverse).bind fun key => finish key ⟨line.column, rest⟩
      else none

/-- Reads a value that stands on the line of its key or entry, and checks that nothing follows it
there. -/
def inline? (least : Nat) (lines : Lines) : Option (Value × Lines) := do
  let (value, rest) ← match lines with
    | [] => none
    | line :: following =>
        match line.text with
        | [] => none
        | c :: text =>
            if c == '\'' || c == '"' || c == '[' || c == '\x7b' then flowNode? (effort lines) lines
            else plain? false least (c :: text) following
  match rest with
  | [] => return (value, [])
  | line :: following => if line.isDone then return (value, following) else none

mutual

/-- Reads the value that starts in column `least` or later. -/
def block? : (fuel : Nat) → (least : Nat) → Lines → Option (Value × Lines)
  | 0, _, _ => none
  | fuel + 1, least, lines =>
      match skipDone lines with
      | [] => some (.null, [])
      | line :: following =>
          if line.column < least || line.isAnyMark then some (.null, line :: following)
          else if line.isEntry then list? fuel line.column [] (line :: following)
          else match keyOf? line with
            | some _ => mapping? fuel line.column [] (line :: following)
            | none => inline? least (line :: following)

/-- Reads the entries of a list whose hyphens stand in `column`. -/
def list? : (fuel : Nat) → (column : Nat) → (read : List Value) → Lines → Option (Value × Lines)
  | 0, _, _, _ => none
  | fuel + 1, column, read, lines =>
      match skipDone lines with
      | [] => some (.list read.reverse, [])
      | line :: following =>
          if line.column < column || line.isAnyMark then
            some (.list read.reverse, line :: following)
          else if column < line.column then none
          else if line.isEntry then do
            let rest := line.after 1
            let inner := if rest.isDone then following else rest :: following
            let (item, lines) ← block? fuel (column + 1) inner
            list? fuel column (item :: read) lines
          else some (.list read.reverse, line :: following)

/-- Reads the entries of a mapping whose keys stand in `column`. -/
def mapping? :
    (fuel : Nat) → (column : Nat) → (read : List (Value × Value)) → Lines → Option (Value × Lines)
  | 0, _, _, _ => none
  | fuel + 1, column, read, lines =>
      match skipDone lines with
      | [] => some (.map read.reverse, [])
      | line :: following =>
          if line.column < column || line.isAnyMark then some (.map read.reverse, line :: following)
          else if column < line.column then none
          else do
            let (key, rest) ← keyOf? line
            let (value, lines) ←
              if rest.isDone then
                match skipDone following with
                | next :: _ =>
                    if next.column == column && next.isEntry && !next.isAnyMark then
                      list? fuel column [] following
                    else block? fuel (column + 1) following
                | [] => some (.null, [])
              else inline? (column + 1) (rest :: following)
            mapping? fuel column ((key, value) :: read) lines

end

/-- A character that may stand in a document. -/
def isReadable (c : Char) : Bool :=
  let n := c.toNat
  n == 0x9 || n == 0xA || n == 0xD || (0x20 ≤ n && n ≤ 0x7E) || n == 0x85
    || (0xA0 ≤ n && n != 0xFFFE && n != 0xFFFF)

/-- What may follow a document: nothing, or the mark of its end. -/
def isEnd (lines : Lines) : Bool :=
  match skipDone lines with
  | [] => true
  | line :: rest => line.isMark '.' && (line.after 3).isDone && (skipDone rest).isEmpty

/-- The value of a document. -/
def document? (cs : List Char) : Option Value := do
  let cs := match cs with
    | '\uFEFF' :: rest => rest
    | cs => cs
  if !cs.all isReadable then none
  else do
    let lines := skipDone (linesOf cs)
    let (value, rest) ← match lines with
      | line :: following =>
          if line.isMark '-' then
            let rest := line.after 3
            if rest.isDone then block? (effort lines) 0 following else inline? 0 (rest :: following)
          else block? (effort lines) 0 lines
      | [] => some (.null, [])
    if isEnd rest then return value else none

end Yaml
end CutsceneCatalog
