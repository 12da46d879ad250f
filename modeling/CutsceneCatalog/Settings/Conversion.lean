import CutsceneCatalog.Location
import CutsceneCatalog.Scalar
import CutsceneCatalog.Text.Utf8
import CutsceneCatalog.Value

/-!
# Conversion of values

Values as locations, texts and whole numbers.  A location and a text are texts already.  A whole
number is read generously: a truth value, a double without a fraction and a text of digits are whole
numbers too.  Where a value is none of these, the kind of the error is all that is told.
-/

namespace CutsceneCatalog

open Text

/-- White space that may surround the digits of a number: a blank that is no separator control. -/
def isPadding (c : Char) : Bool := isBlank c && !(0x1C ≤ c.toNat && c.toNat ≤ 0x1F)

/-- A text without the padding around it. -/
def unpad (cs : List Char) : List Char :=
  ((cs.dropWhile isPadding).reverse.dropWhile isPadding).reverse

/-- The digits of a number in which single underscores may stand between digits. -/
def groupedDigits? : List Char → Option (List Char)
  | [] => none
  | [d] => if d.isDigit then some [d] else none
  | d :: '_' :: rest => if d.isDigit then (groupedDigits? rest).map (d :: ·) else none
  | d :: rest => if d.isDigit then (groupedDigits? rest).map (d :: ·) else none

/-- Reads a whole number: a sign, digits, and a fraction of zeros, with padding around them. -/
def wholeNumberOf (text : String) : Except String Int :=
  let (minus, rest) := splitSign (unpad text.toList)
  let (whole, fraction) := rest.span (· != '.')
  match groupedDigits? whole with
  | none => .error "int_parsing"
  | some digits =>
      if !(fraction.drop 1).all (· == '0') then .error "int_parsing"
      else if digitLimit < digits.length then .error "int_parsing_size"
      else .ok (withSign minus (decimalValue digits))

/-- A double as a whole number, which has to be one and to fit 64 signed bits. -/
def wholeDouble (x : Binary64) : Except String Int :=
  if !x.isFinite then .error "finite_number"
  else if x.units % Binary64.unitsPerOne ≠ 0 then .error "int_from_float"
  else if Nat.pow 2 63 * Binary64.unitsPerOne ≤ x.units then .error "int_parsing_size"
  else .ok (withSign x.negative (x.units / Binary64.unitsPerOne))

/-- A value as a whole number. -/
def Value.whole : Value → Except String Int
  | .int n => .ok n
  | .bool b => .ok (if b then 1 else 0)
  | .float x => wholeDouble x
  | .text s => wholeNumberOf s
  | .bytes bs =>
      match utf8 bs with
      | .ok cs => wholeNumberOf (String.ofList cs)
      | .error _ => .error "int_parsing"
  | .null | .list _ | .map _ | .other .. => .error "int_type"

/-- A value as the location of a folder. -/
def Value.folder : Value → Except String Location
  | .text s => .ok (.ofString s)
  | _ => .error "path_type"

/-- A value as a text. -/
def Value.textOnly : Value → Except String String
  | .text s => .ok s
  | .bytes bs =>
      match utf8 bs with
      | .ok cs => .ok (String.ofList cs)
      | .error _ => .error "string_unicode"
  | _ => .error "string_type"

end CutsceneCatalog
