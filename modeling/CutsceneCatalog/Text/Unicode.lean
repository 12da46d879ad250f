/-!
# Characters by number, and UTF-16

Every character has a number; the numbers of surrogates and those above U+10FFFF have no character.
UTF-16 is read strictly: a lone surrogate or half a unit makes the whole text unreadable.
-/

namespace CutsceneCatalog
namespace Text

/-- The character with the given number, if it is one. -/
def charOf? (n : Nat) : Option Char :=
  if n.isValidChar then some (Char.ofNat n) else none

/-! ## UTF-16 -/

/-- Which of the two bytes of a unit comes first. -/
inductive ByteOrder
  | bigEndian
  | littleEndian
deriving DecidableEq, Repr

/-- The 16-bit units that bytes write; a single byte at the end is no unit. -/
def utf16Units? (order : ByteOrder) : List UInt8 → Option (List Nat)
  | [] => some []
  | [_] => none
  | a :: b :: rest => do
      let units ← utf16Units? order rest
      let unit := match order with
        | .bigEndian => 256 * a.toNat + b.toNat
        | .littleEndian => a.toNat + 256 * b.toNat
      return unit :: units

/-- The characters that 16-bit units write: a high surrogate is followed by a low one, and no low
one stands alone. -/
def charsOfUnits? : List Nat → Option (List Char)
  | [] => some []
  | [u] => do
      let c ← charOf? u
      return [c]
  | u :: v :: rest =>
      if 0xD800 ≤ u ∧ u < 0xDC00 then
        if 0xDC00 ≤ v ∧ v < 0xE000 then do
          let c ← charOf? (0x10000 + 0x400 * (u - 0xD800) + (v - 0xDC00))
          let more ← charsOfUnits? rest
          return c :: more
        else none
      else do
        let c ← charOf? u
        let more ← charsOfUnits? (v :: rest)
        return c :: more

/-- The text that bytes encode in UTF-16. -/
def utf16? (order : ByteOrder) (bytes : List UInt8) : Option (List Char) :=
  (utf16Units? order bytes).bind charsOfUnits?

end Text
end CutsceneCatalog
