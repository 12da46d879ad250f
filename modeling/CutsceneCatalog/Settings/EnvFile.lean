import CutsceneCatalog.Settings.Variables
import CutsceneCatalog.Text.Blank
import CutsceneCatalog.Text.Word

/-!
# Environment files

Files of assignments `NAME=value`, one a line.  A value in apostrophes or quotation marks may hold
anything, one without ends at a comment or at the end of its line; a name without an equals sign
assigns nothing; a line that is no assignment is passed over.  `${NAME}` in a value stands for the
value of a variable, and `${NAME:-text}` for the text if there is no such variable.

A name stands in the place of its first line, with the value of its last one (`EnvFile.read`).
-/

namespace CutsceneCatalog

open Text

namespace EnvFile

/-- An assignment; without a value, the name alone was written. -/
structure Binding where
  name : String
  value : Option String
deriving DecidableEq, Repr

/-- A blank that does not end a line. -/
def isLineBlank (c : Char) : Bool := isBlank c && c != '\n'

/-- The text without the word `export` in front, which a blank has to follow. -/
def dropExport (cs : List Char) : List Char :=
  match afterWord? "export".toList cs with
  | some (c :: rest) => if isLineBlank c then rest.dropWhile isLineBlank else cs
  | _ => cs

/-- Reads up to a quotation mark that no backslash precedes, or else up to the last one; `read`
holds what was passed, last character first, and `last` where a mark was passed. -/
def untilMark (mark : Char) :
    (read : List Char) → (last : Option (List Char × List Char)) → List Char →
    Option (List Char × List Char)
  | _, last, [] => last
  | read, last, c :: rest =>
      if c = mark then
        if read.head? = some '\\' then untilMark mark (c :: read) (some (read.reverse, rest)) rest
        else some (read.reverse, rest)
      else untilMark mark (c :: read) last rest

/-- The text with the escapes of a quoted value replaced; other backslashes stay. -/
def unescape (escape? : Char → Option Char) : List Char → List Char
  | [] => []
  | [c] => [c]
  | c :: d :: rest =>
      if c = '\\' then
        match escape? d with
        | some e => e :: unescape escape? rest
        | none => c :: unescape escape? (d :: rest)
      else c :: unescape escape? (d :: rest)

/-- The escapes between apostrophes. -/
def singleEscape? (c : Char) : Option Char := if c = '\\' ∨ c = '\'' then some c else none

/-- The escapes between quotation marks. -/
def doubleEscape? : Char → Option Char
  | '\\' => some '\\'
  | '\'' => some '\''
  | '"' => some '"'
  | 'a' => some '\x07'
  | 'b' => some '\x08'
  | 'f' => some '\x0c'
  | 'n' => some '\n'
  | 'r' => some '\r'
  | 't' => some '\t'
  | 'v' => some '\x0b'
  | _ => none

/-- The part of an unquoted value before a comment, which a blank precedes. -/
def beforeComment : List Char → List Char
  | [] => []
  | [c] => [c]
  | c :: d :: rest => if isBlank c && d == '#' then [] else c :: beforeComment (d :: rest)

/-- Reads a value after the equals sign; where it has no end, the text from there on. -/
def readValue (cs : List Char) : Except (List Char) (String × List Char) :=
  match cs with
  | '\'' :: rest =>
      match untilMark '\'' [] none rest with
      | some (inside, rest) => .ok (String.ofList (unescape singleEscape? inside), rest)
      | none => .error cs
  | '"' :: rest =>
      match untilMark '"' [] none rest with
      | some (inside, rest) => .ok (String.ofList (unescape doubleEscape? inside), rest)
      | none => .error cs
  | _ =>
      let (line, rest) := cs.span (· != '\n')
      .ok (String.ofList (trimEnd (beforeComment line)), rest)

/-- Reads a name; a comment has none.  Where no name can be read, the text from there on. -/
def readName (cs : List Char) : Except (List Char) (Option String × List Char) :=
  match cs with
  | '#' :: _ => .ok (none, cs)
  | '\'' :: rest =>
      match rest.span (· != '\'') with
      | (name, '\'' :: rest) =>
          if name.isEmpty then .error cs else .ok (some (String.ofList name), rest)
      | _ => .error cs
  | _ =>
      let (name, rest) := cs.span fun c => !(isBlank c || c == '=' || c == '#')
      if name.isEmpty then .error cs else .ok (some (String.ofList name), rest)

/-- Reads what may follow an assignment on its line; where something else follows, the text from
there on. -/
def readLineEnd (cs : List Char) : Except (List Char) (List Char) :=
  let cs := match cs.dropWhile isLineBlank with
    | '#' :: rest => rest.dropWhile (· != '\n')
    | _ => cs
  match cs.dropWhile isLineBlank with
  | [] => .ok []
  | '\n' :: rest => .ok rest
  | _ => .error cs

/-- Reads one assignment. -/
def readBinding (cs : List Char) : Except (List Char) (Option Binding × List Char) := do
  let (name, rest) ← readName (dropExport cs)
  match rest.dropWhile isLineBlank with
  | '=' :: rest =>
      let (value, rest) ← readValue (rest.dropWhile isLineBlank)
      let rest ← readLineEnd rest
      return (name.map fun name => ⟨name, some value⟩, rest)
  | rest =>
      let rest ← readLineEnd rest
      return (name.map fun name => ⟨name, none⟩, rest)

/-- The assignments of a text; after what is none, reading goes on with the next line. -/
def readBindings : (fuel : Nat) → (read : List Binding) → List Char → List Binding
  | 0, read, _ => read.reverse
  | fuel + 1, read, cs =>
      match cs.dropWhile isBlank with
      | [] => read.reverse
      | cs =>
          match readBinding cs with
          | .ok (some binding, rest) => readBindings fuel (binding :: read) rest
          | .ok (none, rest) => readBindings fuel read rest
          | .error rest => readBindings fuel read ((rest.dropWhile (· != '\n')).drop 1)

/-- The assignments that a file makes, in order. -/
def bindings (cs : List Char) : List Binding := readBindings (cs.length + 1) [] cs

/-! ## Variables in values -/

/-- Reads a reference to a variable after its opening: the name, and the text that stands in for a
missing value. -/
def reference? (cs : List Char) : Option (String × String × List Char) :=
  let (name, rest) := cs.span fun c => c != '\x7d' && c != ':'
  match rest with
  | '\x7d' :: rest => some (String.ofList name, "", rest)
  | ':' :: '-' :: rest =>
      match rest.span (· != '\x7d') with
      | (standIn, '\x7d' :: rest) => some (String.ofList name, String.ofList standIn, rest)
      | _ => none
  | _ => none

/-- A value with its references replaced; `known` tells the value of a variable with a given
stand-in. -/
def resolve (known : String → String → String) : (fuel : Nat) → List Char → List Char
  | 0, cs => cs
  | _ + 1, [] => []
  | fuel + 1, '$' :: '\x7b' :: rest =>
      match reference? rest with
      | some (name, standIn, rest) => (known name standIn).toList ++ resolve known fuel rest
      | none => '$' :: resolve known fuel ('\x7b' :: rest)
  | fuel + 1, c :: rest => c :: resolve known fuel rest

/-- The values assigned so far, each name once and in its first place; a name without a value stands
too. -/
abbrev Assigned := List (String × Option String)

/-- Assigns a value, in the place of the one that is there, or else at the end. -/
def Assigned.put (assigned : Assigned) (name : String) (value : Option String) : Assigned :=
  if (assigned.lookup name).isSome then
    assigned.map fun (key, old) => if key = name then (key, value) else (key, old)
  else assigned ++ [(name, value)]

/-- The value of a variable inside an assignment: earlier assignments count before the
environment. -/
def knownValue (vars : Variables) (assigned : Assigned) (name standIn : String) : String :=
  match assigned.lookup name with
  | some value => value.getD ""
  | none => (vars.get? name).getD standIn

/-- Takes one assignment into those made so far. -/
def assign (vars : Variables) (assigned : Assigned) (binding : Binding) : Assigned :=
  let value := binding.value.map fun value =>
    let cs := value.toList
    String.ofList (resolve (knownValue vars assigned) cs.length cs)
  assigned.put binding.name value

/-- What a file assigns to the names in it, its line breaks written as line feeds: of each name's
lines the last decides. -/
def read (vars : Variables) (cs : List Char) : Assigned := (bindings cs).foldl (assign vars) []

end EnvFile

end CutsceneCatalog
