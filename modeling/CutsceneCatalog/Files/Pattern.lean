import CutsceneCatalog.Files

/-!
# Name patterns

Finding the files of a folder whose path matches a pattern.  A pattern is a relative path; a part of
it may hold `*` for any characters, `?` for one character and `[...]` for one character of a class,
and the part `**` stands for any number of folders.  Hidden names and upper and lower case are
nothing special.  What is found is in the order of its parts.

A class lists characters and ranges; `!` at its start takes all others.  A range whose ends are in
the wrong order is empty, a class without an end is an ordinary bracket, and a closing bracket at
the start is a member.
-/

namespace CutsceneCatalog

/-- Why a pattern finds nothing at all. -/
inductive PatternFault
  | empty
  | absolute
  /-- The sign for any number of folders stands inside a name. -/
  | misplacedStars
  /-- The pattern is the folder itself. -/
  | noParts
  /-- The pattern is the folder itself with a slash after it. -/
  | noPartsSlash
  | unreadable (path : String) (fault : FileFault)
deriving DecidableEq, Repr

/-- The wording of a fault. -/
def PatternFault.message : PatternFault → String
  | .empty => "Unacceptable pattern: ''"
  | .absolute => "Non-relative patterns are unsupported"
  | .misplacedStars => "Invalid pattern: '**' can only be an entire path component"
  | .noParts => "tuple index out of range"
  | .noPartsSlash => "'_TerminatingSelector' object has no attribute 'select_from'"
  | .unreadable path fault => fault.message path

namespace Pattern

/-! ## Names -/

/-- A part of a name pattern. -/
inductive Sign
  | star
  | any
  | oneOf (negated : Bool) (ranges : List (Char × Char))
  | char (c : Char)
deriving DecidableEq, Repr

/-- Splits the inside of a class at the hyphens that may be ranges: a hyphen is none at the start,
and none within two characters of the last one.  `skip` is the number of characters before the next
hyphen that counts; `chunk` holds what was passed since the last one, last character first. -/
def chunks : (skip : Nat) → (chunk : List Char) → List Char → List (List Char)
  | _, chunk, [] => [chunk.reverse]
  | 0, chunk, c :: rest =>
      if c = '-' then chunk.reverse :: chunks 2 [] rest else chunks 0 (c :: chunk) rest
  | skip + 1, chunk, c :: rest => chunks skip (c :: chunk) rest

/-- Gives back the hyphen after which nothing follows. -/
def closeChunks : List (List Char) → List (List Char)
  | [chunk, []] => [chunk ++ ['-']]
  | chunk :: rest => chunk :: closeChunks rest
  | [] => []

/-- Joins neighbors whose range would be empty; both ends of such a range are lost. -/
def joinEmpty : List (List Char) → List (List Char)
  | [] => []
  | chunk :: rest =>
      match joinEmpty rest with
      | [] => [chunk]
      | next :: others =>
          match chunk.getLast?, next.head? with
          | some low, some high =>
              if high < low then (chunk.dropLast ++ next.drop 1) :: others
              else chunk :: next :: others
          | _, _ => chunk :: next :: others

/-- The ranges between neighbors. -/
def rangesBetween : List (List Char) → List (Char × Char)
  | chunk :: next :: rest =>
      match chunk.getLast?, next.head? with
      | some low, some high => (low, high) :: rangesBetween (next :: rest)
      | _, _ => rangesBetween (next :: rest)
  | _ => []

/-- The members of a class, without the sign of negation. -/
def members (parts : List (List Char)) : List (Char × Char) :=
  parts.flatten.map (fun c => (c, c)) ++ rangesBetween parts

/-- The class with the given inside. -/
def classOf (inside : List Char) : Sign :=
  let skip := match inside with
    | '!' :: _ => 2
    | _ => 1
  match joinEmpty (closeChunks (chunks skip [] inside)) with
  | ('!' :: first) :: rest => .oneOf true (members (first :: rest))
  | parts => .oneOf false (members parts)

/-- The inside of a class and what follows it, if the class has an end. -/
def classEnd? (cs : List Char) : Option (List Char × List Char) :=
  let (start, rest) := match cs with
    | '!' :: ']' :: rest => (['!', ']'], rest)
    | '!' :: rest => (['!'], rest)
    | ']' :: rest => ([']'], rest)
    | rest => ([], rest)
  match rest.span (· != ']') with
  | (inside, ']' :: rest) => some (start ++ inside, rest)
  | _ => none

/-- The signs of a name pattern; `fuel` bounds their number. -/
def signsFrom : (fuel : Nat) → List Char → List Sign
  | 0, _ => []
  | _ + 1, [] => []
  | fuel + 1, '*' :: rest => .star :: signsFrom fuel rest
  | fuel + 1, '?' :: rest => .any :: signsFrom fuel rest
  | fuel + 1, '[' :: rest =>
      match classEnd? rest with
      | some (inside, rest) => classOf inside :: signsFrom fuel rest
      | none => .char '[' :: signsFrom fuel rest
  | fuel + 1, c :: rest => .char c :: signsFrom fuel rest

/-- The signs of a name pattern. -/
def signs (cs : List Char) : List Sign := signsFrom cs.length cs

/-- Whether a character belongs to a class. -/
def inClass (negated : Bool) (ranges : List (Char × Char)) (c : Char) : Bool :=
  ranges.any (fun (low, high) => low ≤ c && c ≤ high) != negated

/-- Whether a name matches. -/
def matchesName : List Sign → List Char → Bool
  | [], cs => cs.isEmpty
  | .star :: rest, [] => matchesName rest []
  | .star :: rest, c :: cs => matchesName rest (c :: cs) || matchesName (.star :: rest) cs
  | .any :: rest, _ :: cs => matchesName rest cs
  | .oneOf negated ranges :: rest, c :: cs => inClass negated ranges c && matchesName rest cs
  | .char d :: rest, c :: cs => d == c && matchesName rest cs
  | _ :: _, [] => false
termination_by signs cs => signs.length + cs.length

/-! ## Paths -/

/-- A part of a path pattern. -/
inductive Step
  /-- Any number of folders. -/
  | folders
  /-- One folder up. -/
  | up
  | named (part : Part)
  | matching (signs : List Sign)
deriving DecidableEq, Repr

/-- Whether a text has two stars in a row. -/
def hasStars : List Char → Bool
  | '*' :: '*' :: _ => true
  | _ :: rest => hasStars rest
  | [] => false

/-- The step that a part of a pattern is. -/
def stepOf (part : Part) : Except PatternFault Step :=
  let cs := part.text.toList
  if part.text = "**" then .ok .folders
  else if part = .up then .ok .up
  else if hasStars cs then .error .misplacedStars
  else if cs.any fun c => c == '*' || c == '?' || c == '[' then .ok (.matching (signs cs))
  else .ok (.named part)

/-- The steps of a pattern, and whether only folders match it. -/
def steps (pattern : String) : Except PatternFault (List Step × Bool) :=
  let location := Location.ofString pattern
  let slash := pattern.toList.getLast? = some '/'
  if pattern = "" then .error .empty
  else if location.isAbsolute then .error .absolute
  else if location.parts = [] then .error (if slash then .noPartsSlash else .noParts)
  else do
    let steps ← location.parts.mapM stepOf
    return (steps, slash)

/-- Whether something stands at a location, and is a folder where one is needed. -/
def stands (files : Files) (current : List Part) (foldersOnly : Bool) (l : Location) :
    Except PatternFault Bool :=
  match files.lookUp current l with
  | .ok .folder => .ok true
  | .ok (.file _) => .ok (!foldersOnly)
  | .error .nameTooLong => .error (.unreadable l.text .nameTooLong)
  | .error _ => .ok false

/-- The folders in a folder at any depth, itself included. -/
def foldersUnder (files : Files) (current : List Part) (folder : Location) : List Location :=
  let names := (folder.normal current).parts
  folder :: files.entries.filterMap fun (key, entry) =>
    match entry with
    | .folder =>
        if names.isPrefixOf key && names.length < key.length then
          some { folder with parts := folder.parts ++ key.drop names.length }
        else none
    | .file _ => none

/-- The things in a folder whose names match. -/
def matchingIn (files : Files) (current : List Part) (folder : Location) (foldersOnly : Bool)
    (signs : List Sign) : List Location :=
  let names := (folder.normal current).parts
  (files.children names).filterMap fun name =>
    let isFolder := match files.entry? (names ++ [name]) with
      | some .folder => true
      | _ => false
    if (isFolder || !foldersOnly) && matchesName signs name.text.toList then
      some (folder.inside name)
    else none

/-- The locations that one step leads to from a folder. -/
def follow (files : Files) (current : List Part) (foldersOnly : Bool) (folder : Location) :
    Step → Except PatternFault (List Location)
  | .folders => .ok (foldersUnder files current folder)
  | .up => .ok [folder.inside .up]
  | .named part => do
      let target := folder.inside part
      if ← stands files current foldersOnly target then return [target] else return []
  | .matching signs => .ok (matchingIn files current folder foldersOnly signs)

/-- The locations that steps lead to from several folders. -/
def followAll (files : Files) (current : List Part) (slash : Bool) :
    List Step → List Location → Except PatternFault (List Location)
  | [], found => .ok found
  | step :: rest, folders => do
      let foldersOnly := slash || !rest.isEmpty
      let found ← folders.mapM fun folder => follow files current foldersOnly folder step
      followAll files current slash rest found.flatten

/-- Whether one location stands before another: their parts are compared in turn. -/
def before (a b : Location) : Bool :=
  let key (l : Location) : List (List Char) := l.parts.map fun part => part.text.toList
  let earlier (s t : List Char) : Bool := s.lex t fun c d => c.toNat < d.toNat
  !(key b).lex (key a) earlier

/-- The regular files among locations. -/
def regular (files : Files) (current : List Part) (l : Location) : Except PatternFault Bool :=
  match files.lookUp current l with
  | .ok (.file _) => .ok true
  | .error .nameTooLong => .error (.unreadable l.text .nameTooLong)
  | _ => .ok false

end Pattern

/-- The files in a folder that match a pattern, in order; a folder that is not there has none. -/
def Files.find (files : Files) (current : List Part) (folder : Location) (pattern : String) :
    Except PatternFault (List Location) := do
  let (steps, slash) ← Pattern.steps pattern
  if ← Pattern.stands files current true folder then
    let found ← Pattern.followAll files current slash steps [folder]
    let regular ← found.eraseDups.filterM (Pattern.regular files current)
    return regular.mergeSort Pattern.before
  else return []

end CutsceneCatalog
