import CutsceneCatalog.Binary64

/-!
# Values

A value of a settings file: nothing, a scalar, a list or a mapping, or something else of which only
the kind is of interest, such as a date.  A mapping may have one key several times; the last one
counts.
-/

namespace CutsceneCatalog

/-- A value of a settings file. -/
inductive Value
  | null
  | bool (b : Bool)
  | int (n : Int)
  | float (x : Binary64)
  | text (s : String)
  | bytes (bs : List UInt8)
  | list (items : List Value)
  | map (entries : List (Value × Value))
  /-- A value of another kind; a void one counts as nothing where a mapping is expected. -/
  | other (kind : String) (void : Bool)
deriving Inhabited, Repr

namespace Value

/-- What stands for nothing where a mapping is expected: nothing itself, false, zero, and what is
empty. -/
def isVoid : Value → Bool
  | null => true
  | bool b => !b
  | int n => n == 0
  | float x => x.magnitude == 0
  | text s => s == ""
  | bytes bs => bs.isEmpty
  | list items => items.isEmpty
  | map entries => entries.isEmpty
  | other _ void => void

/-- The name of a value's kind. -/
def kindName : Value → String
  | null => "NoneType"
  | bool _ => "bool"
  | int _ => "int"
  | float _ => "float"
  | text _ => "str"
  | bytes _ => "bytes"
  | list _ => "list"
  | map _ => "dict"
  | other kind _ => kind

/-- Whether a key is the given text. -/
def isText (name : String) : Value → Bool
  | text s => s == name
  | _ => false

/-- The value of a key: of several entries, the last one. -/
def entry? (entries : List (Value × Value)) (name : String) : Option Value :=
  (entries.reverse.find? fun (key, _) => key.isText name).map Prod.snd

/-- A key has to be a scalar. -/
def isScalar : Value → Bool
  | list _ | map _ => false
  | _ => true

/-! ## Equality -/

mutual

/-- Whether two values are the same. -/
def same : Value → Value → Bool
  | null, null => true
  | bool b, bool c => b == c
  | int n, int m => n == m
  | float x, float y => x == y
  | text s, text t => s == t
  | bytes bs, bytes cs => bs == cs
  | list items, list others => sameItems items others
  | map entries, map others => sameEntries entries others
  | other kind void, other kind' void' => kind == kind' && void == void'
  | _, _ => false

/-- Whether two lists have the same values in order. -/
def sameItems : List Value → List Value → Bool
  | [], [] => true
  | v :: rest, w :: others => same v w && sameItems rest others
  | _, _ => false

/-- Whether two mappings have the same entries in order. -/
def sameEntries : List (Value × Value) → List (Value × Value) → Bool
  | [], [] => true
  | (key, v) :: rest, (key', w) :: others =>
      same key key' && same v w && sameEntries rest others
  | _, _ => false

end

mutual

theorem same_eq_true_iff (v w : Value) : same v w = true ↔ v = w := by
  cases v <;> cases w <;> simp [same, sameItems_eq_true_iff, sameEntries_eq_true_iff]

theorem sameItems_eq_true_iff (items others : List Value) :
    sameItems items others = true ↔ items = others := by
  cases items <;> cases others <;> simp [sameItems, same_eq_true_iff, sameItems_eq_true_iff]

theorem sameEntries_eq_true_iff (entries others : List (Value × Value)) :
    sameEntries entries others = true ↔ entries = others := by
  rcases entries with _ | ⟨⟨key, v⟩, rest⟩ <;> rcases others with _ | ⟨⟨key', w⟩, rest'⟩ <;>
    simp [sameEntries, same_eq_true_iff, sameEntries_eq_true_iff, and_assoc]

end

instance : DecidableEq Value := fun v w => decidable_of_iff _ (same_eq_true_iff v w)

end Value

end CutsceneCatalog
