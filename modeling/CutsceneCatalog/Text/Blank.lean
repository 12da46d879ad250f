/-!
# Blanks

The characters that trimming removes at both ends of a text: the white space of Unicode, together
with the four separator controls U+001C to U+001F.  Characters that merely print nothing (U+180E,
U+200B, U+2060, U+FEFF) are no blanks.  Everything that reads a scalar from a text trims it with
`trim` first.
-/

namespace CutsceneCatalog
namespace Text

/-- A blank is a character that trimming removes. -/
def isBlank (c : Char) : Bool :=
  let n := c.toNat
  (0x09 ≤ n && n ≤ 0x0D) || (0x1C ≤ n && n ≤ 0x20) || n == 0x85 || n == 0xA0 || n == 0x1680
    || (0x2000 ≤ n && n ≤ 0x200A) || n == 0x2028 || n == 0x2029 || n == 0x202F || n == 0x205F
    || n == 0x3000

/-- The characters left when the blanks at the end are removed. -/
def trimEnd (cs : List Char) : List Char :=
  (cs.reverse.dropWhile isBlank).reverse

/-- The characters left when the blanks at both ends are removed. -/
def trimChars (cs : List Char) : List Char :=
  trimEnd (cs.dropWhile isBlank)

/-- A text without the blanks at its ends. -/
def trim (s : String) : String :=
  String.ofList (trimChars s.toList)

@[simp] theorem trimChars_nil : trimChars [] = [] := rfl

@[simp] theorem toList_trim (s : String) : (trim s).toList = trimChars s.toList := by
  simp [trim]

end Text
end CutsceneCatalog
