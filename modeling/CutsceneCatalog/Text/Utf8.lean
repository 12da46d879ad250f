import CutsceneCatalog.Text.Digits

/-!
# UTF-8

Reading UTF-8 strictly, one byte at a time.  A leading byte fixes the ranges of the bytes that have
to follow it (`leading?`), so an overlong form, a surrogate and a number above U+10FFFF are refused
at the first byte that rules them out.  `utf8` tells where and why bytes are no text.
-/

namespace CutsceneCatalog
namespace Text

/-- What is wrong with a character. -/
inductive Utf8Flaw
  /-- No character begins with this byte. -/
  | start
  /-- A byte does not continue the character. -/
  | continuation
  /-- The bytes end before the character does. -/
  | cutShort
deriving DecidableEq, Repr

/-- The first place at which bytes are no UTF-8. -/
structure Utf8Fault where
  /-- The number of bytes before the character. -/
  position : Nat
  /-- The byte that the character begins with. -/
  lead : UInt8
  /-- The number of bytes of the character that were read. -/
  seen : Nat
  flaw : Utf8Flaw
deriving DecidableEq, Repr

/-- The name of a flaw. -/
def Utf8Flaw.text : Utf8Flaw → String
  | .start => "invalid start byte"
  | .continuation => "invalid continuation byte"
  | .cutShort => "unexpected end of data"

/-- The wording of a fault: a single byte is shown, several are only counted. -/
def Utf8Fault.message (fault : Utf8Fault) : String :=
  let place :=
    if fault.seen = 1 then
      "byte 0x" ++ String.ofList (hexDigits 2 fault.lead.toNat) ++ " in position "
        ++ toString fault.position
    else
      "bytes in position " ++ toString fault.position ++ "-"
        ++ toString (fault.position + fault.seen - 1)
  "'utf-8' codec can't decode " ++ place ++ ": " ++ fault.flaw.text

/-- The number that a leading byte contributes, and the closed ranges of the bytes to follow. -/
def leading? (n : Nat) : Option (Nat × List (Nat × Nat)) :=
  let tail := (0x80, 0xBF)
  if n < 0x80 then some (n, [])
  else if n < 0xC2 then none
  else if n < 0xE0 then some (n - 0xC0, [tail])
  else if n = 0xE0 then some (0, [(0xA0, 0xBF), tail])
  else if n = 0xED then some (0xD, [(0x80, 0x9F), tail])
  else if n < 0xF0 then some (n - 0xE0, [tail, tail])
  else if n = 0xF0 then some (0, [(0x90, 0xBF), tail, tail])
  else if n < 0xF4 then some (n - 0xF0, [tail, tail, tail])
  else if n = 0xF4 then some (4, [(0x80, 0x8F), tail, tail])
  else none

/-- A character of which some bytes have been read. -/
structure PartialChar where
  position : Nat
  lead : UInt8
  seen : Nat
  /-- The number read so far. -/
  value : Nat
  /-- The ranges of the bytes that are left. -/
  owed : List (Nat × Nat)
deriving Repr

namespace PartialChar

/-- The fault of a character that cannot be read on. -/
def fault (part : PartialChar) (flaw : Utf8Flaw) : Utf8Fault :=
  ⟨part.position, part.lead, part.seen, flaw⟩

/-- Begins a character. -/
def begin? (position : Nat) (b : UInt8) : Option PartialChar :=
  (leading? b.toNat).map fun (value, owed) => ⟨position, b, 1, value, owed⟩

/-- Goes on with the next byte. -/
def extend? (part : PartialChar) (b : UInt8) : Option PartialChar :=
  match part.owed with
  | [] => none
  | (low, high) :: owed =>
      if low ≤ b.toNat ∧ b.toNat ≤ high then
        some { part with
          seen := part.seen + 1
          value := 64 * part.value + (b.toNat - 0x80)
          owed := owed }
      else none

end PartialChar

/-- Reads bytes after `read`, last character first, and after the character `part`, if one has been
begun; `position` is the number of bytes read. -/
def utf8From (position : Nat) (read : List Char) :
    Option PartialChar → List UInt8 → Except Utf8Fault (List Char)
  | none, [] => .ok read.reverse
  | some part, [] => .error (part.fault .cutShort)
  | none, b :: rest =>
      match PartialChar.begin? position b with
      | none => .error ⟨position, b, 1, .start⟩
      | some part =>
          if part.owed = [] then utf8From (position + 1) (Char.ofNat part.value :: read) none rest
          else utf8From (position + 1) read (some part) rest
  | some part, b :: rest =>
      match part.extend? b with
      | none => .error (part.fault .continuation)
      | some part =>
          if part.owed = [] then utf8From (position + 1) (Char.ofNat part.value :: read) none rest
          else utf8From (position + 1) read (some part) rest

/-- The text that bytes encode in UTF-8, or the first fault. -/
def utf8 (bytes : List UInt8) : Except Utf8Fault (List Char) := utf8From 0 [] none bytes

/-- The number of bytes that a text takes in UTF-8. -/
def utf8Length (s : String) : Nat := s.utf8ByteSize

end Text
end CutsceneCatalog
