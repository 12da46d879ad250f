import CutsceneCatalog.Yaml.Line
import CutsceneCatalog.Yaml.Scalar
import CutsceneCatalog.Text.Unicode

/-!
# Scalars and flow collections of YAML

Reading a value that does not depend on indentation: a quoted scalar, a plain scalar, a list in
brackets, a mapping in braces.  Such a value may go on over several lines; a line break inside a
scalar is a space, and empty lines are line breaks.
-/

namespace CutsceneCatalog
namespace Yaml

/-- Space that is dropped around a line break inside a scalar. -/
def isInlineSpace (c : Char) : Bool := c == ' ' || c == '\t'

/-- The number of lines of nothing but some kind of space at a line break, and the lines from the
next one on. -/
def emptyLines (isSpace : Char → Bool) : Lines → Nat × Lines
  | [] => (0, [])
  | line :: rest =>
      if line.text.all isSpace then
        let (count, left) := emptyLines isSpace rest
        (count + 1, left)
      else (0, line :: rest)

/-- What a line break inside a scalar stands for, last character first. -/
def foldedBreak (emptyCount : Nat) : List Char :=
  if emptyCount = 0 then [' '] else List.replicate emptyCount '\n'

/-- Goes on with a quoted scalar on the next line that has text. -/
def nextQuotedLine? (read : List Char) (following : Lines) :
    Option (List Char × List Char × Lines) :=
  match emptyLines isInlineSpace following with
  | (_, []) => none
  | (count, line :: rest) =>
      if line.isAnyMark then none
      else
        let read := foldedBreak count ++ read.dropWhile isInlineSpace
        some (read, line.text.dropWhile isInlineSpace, rest)

/-- Reads the rest of a scalar in apostrophes, in which an apostrophe is written twice. -/
def singleQuoted? : (fuel : Nat) → (read text : List Char) → Lines → Option (List Char × Lines)
  | 0, _, _, _ => none
  | fuel + 1, read, '\'' :: '\'' :: text, following =>
      singleQuoted? fuel ('\'' :: read) text following
  | _ + 1, read, '\'' :: text, following => some (read.reverse, ⟨1, text⟩ :: following)
  | fuel + 1, read, c :: text, following => singleQuoted? fuel (c :: read) text following
  | fuel + 1, read, [], following => do
      let (read, text, following) ← nextQuotedLine? read following
      singleQuoted? fuel read text following

/-- The character that an escape of one letter stands for. -/
def escaped? : Char → Option Char
  | '0' => some '\x00'
  | 'a' => some '\x07'
  | 'b' => some '\x08'
  | 't' | '\t' => some '\t'
  | 'n' => some '\n'
  | 'v' => some '\x0b'
  | 'f' => some '\x0c'
  | 'r' => some '\r'
  | 'e' => some '\x1b'
  | ' ' => some ' '
  | '"' => some '"'
  | '\\' => some '\\'
  | '/' => some '/'
  | 'N' => some '\u0085'
  | '_' => some '\u00a0'
  | 'L' => some '\u2028'
  | 'P' => some '\u2029'
  | _ => none

/-- The number of hexadecimal digits after the letter of an escape. -/
def escapeWidth? : Char → Option Nat
  | 'x' => some 2
  | 'u' => some 4
  | 'U' => some 8
  | _ => none

/-- Reads an escape after its backslash. -/
def escape? : List Char → Option (Char × List Char)
  | [] => none
  | letter :: rest =>
      match escapeWidth? letter with
      | some width => do
          let digits := rest.take width
          if digits.length < width then none
          else do
            let n ← Text.hexRun? digits
            let c ← Text.charOf? n
            return (c, rest.drop width)
      | none => (escaped? letter).map fun c => (c, rest)

/-- Reads the rest of a scalar in quotation marks, in which a backslash begins an escape; one at the
end of a line removes the line break. -/
def doubleQuoted? : (fuel : Nat) → (read text : List Char) → Lines → Option (List Char × Lines)
  | 0, _, _, _ => none
  | _ + 1, read, '"' :: text, following => some (read.reverse, ⟨1, text⟩ :: following)
  | fuel + 1, read, ['\\'], following => do
      let (count, left) := emptyLines isInlineSpace following
      match left with
      | [] => none
      | line :: rest =>
          let read := List.replicate count '\n' ++ read
          doubleQuoted? fuel read (line.text.dropWhile isInlineSpace) rest
  | fuel + 1, read, '\\' :: text, following => do
      let (c, text) ← escape? text
      doubleQuoted? fuel (c :: read) text following
  | fuel + 1, read, c :: text, following => doubleQuoted? fuel (c :: read) text following
  | fuel + 1, read, [], following => do
      let (read, text, following) ← nextQuotedLine? read following
      doubleQuoted? fuel read text following

/-! ## Plain scalars -/

/-- Whether a plain scalar may begin here. -/
def beginsPlain (flow : Bool) : List Char → Bool
  | [] => false
  | c :: rest =>
      let solid := rest.head?.any fun d => d != ' ' && d != '\t'
      if c == '-' then solid
      else if c == '?' || c == ':' then !flow && solid
      else !(c == ' ' || c == '\t' || ",[]\x7b\x7d#&*!|>'\"%@`".toList.contains c)

/-- Whether a plain scalar ends before `c`, after `previous` and before `rest`. -/
def endsPlain (flow : Bool) (previous : Option Char) (c : Char) (rest : List Char) : Bool :=
  c == '\t' || (c == '#' && previous == some ' ')
    || (c == ':' && rest.head?.all fun d =>
          d == ' ' || d == '\t' || (flow && ",[]\x7b\x7d".toList.contains d))
    || (flow && ",?[]\x7b\x7d".toList.contains c)

/-- The part of a plain scalar on one line, last character first, and what is left of the line. -/
def plainRun (flow : Bool) : (read : List Char) → List Char → List Char × List Char
  | read, [] => (read, [])
  | read, c :: rest =>
      if endsPlain flow read.head? c rest then (read, c :: rest) else plainRun flow (c :: read) rest

/-- The part of a plain scalar on one line without the spaces after it, last character first. -/
def plainChunk (flow : Bool) (text : List Char) : List Char × List Char :=
  let (read, rest) := plainRun flow [] text
  (read.dropWhile (· == ' '), rest)

/-- Reads the further lines of a plain scalar: in a block they start in column `least` or later.
What is left begins with the rest of the scalar's last line. -/
def plainLines (flow : Bool) (least : Nat) :
    (fuel : Nat) → (read : List Char) → Lines → List Char × Lines
  | 0, read, lines => (read, ⟨1, []⟩ :: lines)
  | fuel + 1, read, lines =>
      match emptyLines (· == ' ') lines with
      | (_, []) => (read, [])
      | (count, line :: rest) =>
          if line.isDone || line.isAnyMark || (!flow && line.column < least) then
            (read, ⟨1, []⟩ :: line :: rest)
          else
            match plainChunk flow line.text with
            | ([], _) => (read, ⟨1, []⟩ :: line :: rest)
            | (chunk, []) => plainLines flow least fuel (chunk ++ foldedBreak count ++ read) rest
            | (chunk, left) => (chunk ++ foldedBreak count ++ read, ⟨1, left⟩ :: rest)

/-- Reads a plain scalar. -/
def plain? (flow : Bool) (least : Nat) (text : List Char) (following : Lines) :
    Option (Value × Lines) :=
  if beginsPlain flow text then
    match plainChunk flow text with
    | (read, []) =>
        let (read, rest) := plainLines flow least (following.length + 1) read following
        (scalarValue? read.reverse).map fun value => (value, rest)
    | (read, left) =>
        (scalarValue? read.reverse).map fun value => (value, ⟨1, left⟩ :: following)
  else none

/-! ## Flow collections -/

/-- The lines from the next character of a flow collection on; a collection does not end with the
document. -/
def flowNext? (lines : Lines) : Option (Char × List Char × Lines) :=
  match skipDone lines with
  | [] => none
  | line :: rest =>
      if line.isAnyMark then none
      else match line.trimStart.text with
        | [] => none
        | c :: text => some (c, text, rest)

mutual

/-- Reads a value inside a flow collection. -/
def flowNode? : (fuel : Nat) → Lines → Option (Value × Lines)
  | 0, _ => none
  | fuel + 1, lines => do
      let (c, text, following) ← flowNext? lines
      if c == '\'' then
        let (cs, rest) ← singleQuoted? (effort lines) [] text following
        return (.text (String.ofList cs), rest)
      else if c == '"' then
        let (cs, rest) ← doubleQuoted? (effort lines) [] text following
        return (.text (String.ofList cs), rest)
      else if c == '[' then flowList? fuel [] (⟨1, text⟩ :: following)
      else if c == '\x7b' then flowMap? fuel [] (⟨1, text⟩ :: following)
      else plain? true 0 (c :: text) following

/-- Reads a value that may be missing before what ends it. -/
def flowValue? : (fuel : Nat) → Lines → Option (Value × Lines)
  | 0, _ => none
  | fuel + 1, lines => do
      let (c, _, _) ← flowNext? lines
      if c == ',' || c == ']' || c == '\x7d' then return (.null, lines) else flowNode? fuel lines

/-- Reads the rest of a list in brackets. -/
def flowList? : (fuel : Nat) → (read : List Value) → Lines → Option (Value × Lines)
  | 0, _, _ => none
  | fuel + 1, read, lines => do
      let (c, text, following) ← flowNext? lines
      if c == ']' then return (.list read.reverse, ⟨1, text⟩ :: following)
      else do
        let (item, lines) ← flowNode? fuel lines
        let (c, text, following) ← flowNext? lines
        let (item, lines) ←
          if c == ':' then do
            let (value, lines) ← flowValue? fuel (⟨1, text⟩ :: following)
            pure (if item.isScalar then some (Value.map [(item, value)]) else none, lines)
          else pure (some item, lines)
        let item ← item
        let (c, text, following) ← flowNext? lines
        if c == ',' then flowList? fuel (item :: read) (⟨1, text⟩ :: following)
        else if c == ']' then return (.list (item :: read).reverse, ⟨1, text⟩ :: following)
        else none

/-- Reads the rest of a mapping in braces. -/
def flowMap? : (fuel : Nat) → (read : List (Value × Value)) → Lines → Option (Value × Lines)
  | 0, _, _ => none
  | fuel + 1, read, lines => do
      let (c, text, following) ← flowNext? lines
      if c == '\x7d' then return (.map read.reverse, ⟨1, text⟩ :: following)
      else do
        let (key, lines) ← flowNode? fuel lines
        if !key.isScalar then none
        else do
          let (c, text, following) ← flowNext? lines
          let (value, lines) ←
            if c == ':' then flowValue? fuel (⟨1, text⟩ :: following) else pure (.null, lines)
          let read := (key, value) :: read
          let (c, text, following) ← flowNext? lines
          if c == ',' then flowMap? fuel read (⟨1, text⟩ :: following)
          else if c == '\x7d' then return (.map read.reverse, ⟨1, text⟩ :: following)
          else none

end

end Yaml
end CutsceneCatalog
