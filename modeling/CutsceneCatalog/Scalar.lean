import CutsceneCatalog.Binary64
import CutsceneCatalog.Text.Blank
import CutsceneCatalog.Text.Digits

/-!
# Scalar texts

The texts of truth values, whole numbers and decimal numbers as definition documents write them.
Blanks around a scalar never matter; inside it nothing but the grammar below is read.  A whole
number is a sign and ASCII digits and fits 32 signed bits.  A decimal number is split by
`DecimalLiteral.ofChars?` into its parts, and the ratio those parts denote is rounded once
(`DecimalLiteral.toBinary64`).
-/

namespace CutsceneCatalog

open Text

/-- Why a text is not the scalar it was read as.  Each cause but one keeps the whole text. -/
inductive ScalarError
  | notBool (text : String)
  | notInt (text : String)
  | intOutOfRange (text : String)
  /-- More digits than a whole number may be written with. -/
  | tooManyDigits (count : Nat)
  | notFloat (text : String)
  | notColor (text : String)
deriving DecidableEq, Repr

/-- The greatest number of digits, leading zeros included, that a whole number may be written
with. -/
def digitLimit : Nat := 4300

/-- The wording of a scalar error. -/
def ScalarError.message : ScalarError → String
  | .notBool text => "Invalid bool '" ++ text ++ "'"
  | .notInt text => "Invalid int '" ++ text ++ "'"
  | .intOutOfRange text => "Int '" ++ text ++ "' is out of range"
  | .tooManyDigits count =>
      "Exceeds the limit (" ++ toString digitLimit
        ++ " digits) for integer string conversion: value has " ++ toString count
        ++ " digits; use sys.set_int_max_str_digits() to increase the limit"
  | .notFloat text => "Invalid float '" ++ text ++ "'"
  | .notColor text => "Invalid HTML color '" ++ text ++ "'"

/-! ## Truth values -/

/-- A truth value is `true` or `false` in any letter case. -/
def boolOfText (text : String) : Except ScalarError Bool :=
  let word := String.ofList ((trimChars text.toList).map Char.toLower)
  if word = "true" then .ok true
  else if word = "false" then .ok false
  else .error (.notBool text)

/-! ## Whole numbers -/

/-- An optional sign and what follows it; `true` stands for minus. -/
def splitSign : List Char → Bool × List Char
  | '+' :: rest => (false, rest)
  | '-' :: rest => (true, rest)
  | rest => (false, rest)

/-- The sign and the digits of a whole number: one digit at least, and nothing else. -/
def signedDigits? (cs : List Char) : Option (Bool × List Char) :=
  let (minus, digits) := splitSign cs
  if digits ≠ [] ∧ digits.all Char.isDigit then some (minus, digits) else none

/-- A natural number with a sign. -/
def withSign (minus : Bool) (n : Nat) : Int :=
  if minus then -(n : Int) else n

/-- The least whole number of 32 signed bits. -/
def int32Min : Int := -(Nat.pow 2 31)

/-- The greatest whole number of 32 signed bits. -/
def int32Max : Int := Nat.pow 2 31 - 1

/-- Reads a whole number of 32 signed bits. -/
def intOfText (text : String) : Except ScalarError Int :=
  match signedDigits? (trimChars text.toList) with
  | none => .error (.notInt text)
  | some (minus, digits) =>
      if digitLimit < digits.length then .error (.tooManyDigits digits.length)
      else
        let n := withSign minus (decimalValue digits)
        if int32Min ≤ n ∧ n ≤ int32Max then .ok n else .error (.intOutOfRange text)

/-! ## Decimal numbers -/

/-- The parts of a decimal number: `negative whole . fraction E exponent`. -/
structure DecimalLiteral where
  negative : Bool
  whole : List Char
  fraction : List Char
  exponent : Int
deriving Repr

namespace DecimalLiteral

/-- The exponent at the end of a number: nothing, or `e` and a signed whole number. -/
def exponentOf? : List Char → Option Int
  | [] => some 0
  | e :: rest =>
      if e = 'e' ∨ e = 'E' then
        (signedDigits? rest).map fun (minus, digits) => withSign minus (decimalValue digits)
      else none

/-- The fraction digits and what follows them; without a point there are none. -/
def fractionOf : List Char → List Char × List Char
  | '.' :: rest => rest.span Char.isDigit
  | rest => ([], rest)

/-- Splits a decimal number into its parts: a digit stands before or after the point, which may be
absent. -/
def ofChars? (cs : List Char) : Option DecimalLiteral := do
  let (negative, rest) := splitSign cs
  let (whole, rest) := rest.span Char.isDigit
  let (fraction, rest) := fractionOf rest
  if whole = [] ∧ fraction = [] then none
  else do
    let exponent ← exponentOf? rest
    return { negative, whole, fraction, exponent }

/-- The whole number written by the digits on both sides of the point. -/
def digits (x : DecimalLiteral) : Nat := decimalValue (x.whole ++ x.fraction)

/-- The power of ten by which `digits` is multiplied. -/
def scale (x : DecimalLiteral) : Int := x.exponent - x.fraction.length

/-- The double nearest to the number denoted.  A scale too great or too small to matter is not
raised to a power: from `10 ^ 310` upwards everything is infinite, and below `10 ^ -400` everything
is zero. -/
def toBinary64 (x : DecimalLiteral) : Binary64 :=
  if x.digits = 0 then .zero x.negative
  else if 310 < x.scale then .infinity x.negative
  else if x.scale + (x.whole ++ x.fraction).length < -400 then .zero x.negative
  else if 0 ≤ x.scale then .nearest x.negative (x.digits * Nat.pow 10 x.scale.toNat) 1
  else .nearest x.negative x.digits (Nat.pow 10 (-x.scale).toNat)

end DecimalLiteral

/-- Reads a decimal number and rounds it to the nearest double. -/
def floatOfText (text : String) : Except ScalarError Binary64 :=
  match DecimalLiteral.ofChars? (trimChars text.toList) with
  | none => .error (.notFloat text)
  | some literal => .ok literal.toBinary64

end CutsceneCatalog
