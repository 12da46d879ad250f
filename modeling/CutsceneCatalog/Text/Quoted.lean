import CutsceneCatalog.Text.Digits
import CutsceneCatalog.Text.Unprinted

/-!
# Quoted texts

How a message quotes a text that may hold anything: between apostrophes, or between quotation marks
if the text has apostrophes only; the mark itself, a backslash and what cannot be printed are
escaped.
-/

namespace CutsceneCatalog
namespace Text

/-- A character that a quoted text shows as it is. -/
def isPrinted (c : Char) : Bool :=
  0x20 ≤ c.toNat && !unprintedRanges.any fun (low, high) => low ≤ c.toNat && c.toNat ≤ high

/-- The escape of a character that is not shown. -/
def escapeNumber (n : Nat) : List Char :=
  if n < 0x100 then '\\' :: 'x' :: hexDigits 2 n
  else if n < 0x10000 then '\\' :: 'u' :: hexDigits 4 n
  else '\\' :: 'U' :: hexDigits 8 n

/-- How one character stands in a text quoted with `mark`. -/
def quotedChar (mark c : Char) : List Char :=
  if c = mark ∨ c = '\\' then ['\\', c]
  else if c = '\n' then ['\\', 'n']
  else if c = '\r' then ['\\', 'r']
  else if c = '\t' then ['\\', 't']
  else if isPrinted c then [c]
  else escapeNumber c.toNat

/-- A text in quotation marks. -/
def quote (s : String) : String :=
  let cs := s.toList
  let mark := if cs.contains '\'' && !cs.contains '"' then '"' else '\''
  String.ofList (mark :: cs.flatMap (quotedChar mark) ++ [mark])

end Text
end CutsceneCatalog
