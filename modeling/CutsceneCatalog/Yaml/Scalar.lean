import CutsceneCatalog.Scalar
import CutsceneCatalog.Text.Split
import CutsceneCatalog.Value

/-!
# Plain scalars of YAML

What a scalar without quotation marks stands for.  The rules are those of YAML 1.1: many words are
truth values, whole numbers may be binary, octal (with a leading zero), hexadecimal or in base
sixty, underscores between digits are ignored, and a decimal number needs a point.  A date or a time
is kept by its kind alone, and is not looked up in the calendar.  Whatever is none of these is a
text, but for the equals sign and the mark of merged keys, which are not read.
-/

namespace CutsceneCatalog
namespace Yaml

open Text

/-- The truth value of a word. -/
def boolOf? : String → Option Bool
  | "yes" | "Yes" | "YES" | "true" | "True" | "TRUE" | "on" | "On" | "ON" => some true
  | "no" | "No" | "NO" | "false" | "False" | "FALSE" | "off" | "Off" | "OFF" => some false
  | _ => none

/-- The words for nothing. -/
def isNull (s : String) : Bool := ["", "~", "null", "Null", "NULL"].contains s

/-- The value of digits in a base. -/
def valueIn (base : Nat) (digits : List Char) : Nat :=
  digits.foldl (fun n d => base * n + (hexValue? d).getD 0) 0

/-- The digits without underscores. -/
def plainDigits (cs : List Char) : List Char := cs.filter (· != '_')

/-- A run of digits of a kind and underscores. -/
def isRun (p : Char → Bool) (cs : List Char) : Bool := cs.all fun c => p c || c == '_'

/-- A digit below a base. -/
def isDigitOf (base : Nat) (c : Char) : Bool := (hexValue? c).any (· < base)

/-- A decimal number without a leading zero, underscores included. -/
def isPlainNumber : List Char → Bool
  | [] => false
  | c :: rest => '1' ≤ c && c ≤ '9' && isRun Char.isDigit rest

/-- A place of a number in base sixty after the first: one or two digits below sixty. -/
def isSixtieth : List Char → Bool
  | [c] => c.isDigit
  | [a, b] => '0' ≤ a && a ≤ '5' && b.isDigit
  | _ => false

/-- The value of places in base sixty. -/
def sexagesimal (places : List (List Char)) : Nat :=
  places.foldl (fun n place => 60 * n + decimalValue (plainDigits place)) 0

/-- The natural number that digits and underscores write in a base. -/
def runIn? (base : Nat) (cs : List Char) : Option Nat :=
  if isRun (isDigitOf base) cs then some (valueIn base (plainDigits cs)) else none

/-- The natural number that digits write, with the mark of their base. -/
def naturalOf? (cs : List Char) : Option Nat :=
  match cs with
  | ['0'] => some 0
  | '0' :: 'b' :: (d :: rest) => runIn? 2 (d :: rest)
  | '0' :: 'x' :: (d :: rest) => runIn? 16 (d :: rest)
  | '0' :: rest => runIn? 8 rest
  | _ =>
      match pieces ':' cs with
      | [] => none
      | [number] => if isPlainNumber number then some (decimalValue (plainDigits number)) else none
      | number :: places =>
          if isPlainNumber number && places.all isSixtieth then
            some (sexagesimal (number :: places))
          else none

/-- The whole number that a scalar writes. -/
def intOf? (cs : List Char) : Option Int :=
  let (minus, rest) := splitSign cs
  (naturalOf? rest).map (withSign minus)

/-- The exponent of a decimal number, which has a sign. -/
def isExponent : List Char → Bool
  | [] => true
  | e :: s :: d :: rest =>
      (e == 'e' || e == 'E') && (s == '+' || s == '-') && (d :: rest).all Char.isDigit
  | _ => false

/-- A decimal number: digits, a point, digits and an exponent, without its sign; no sign stands
before a point that nothing precedes. -/
def isDecimal (signed : Bool) (cs : List Char) : Bool :=
  let (whole, rest) := cs.span fun c => c.isDigit || c == '_'
  match rest with
  | '.' :: rest =>
      let (fraction, exponent) := rest.span fun c => c.isDigit || c == '_'
      isExponent exponent &&
        (match whole with
        | d :: _ => d.isDigit
        | [] => !signed && fraction.head?.any Char.isDigit)
  | _ => false

/-- A number in base sixty whose last place has a fraction. -/
def sexagesimalFloat? (negative : Bool) (cs : List Char) : Option Binary64 :=
  let (before, rest) := cs.span (· != '.')
  match rest, pieces ':' before with
  | '.' :: fraction, number :: place :: places =>
      let digits := plainDigits fraction
      if number.head?.any Char.isDigit && isRun Char.isDigit number
          && (place :: places).all isSixtieth && isRun Char.isDigit fraction then
        let scale := Nat.pow 10 digits.length
        let whole := sexagesimal (number :: place :: places)
        some (.nearest negative (whole * scale + decimalValue digits) scale)
      else none
  | _, _ => none

/-- The decimal number that a scalar writes. -/
def floatOf? (cs : List Char) : Option Binary64 :=
  let (negative, rest) := splitSign cs
  let signed := rest.length < cs.length
  let word := String.ofList rest
  if [".inf", ".Inf", ".INF"].contains word then some (.infinity negative)
  else if !signed && [".nan", ".NaN", ".NAN"].contains word then some (.ofBits 0x7FF8000000000000)
  else if isDecimal signed rest then
    (DecimalLiteral.ofChars? (plainDigits cs)).map DecimalLiteral.toBinary64
  else sexagesimalFloat? negative rest

/-! ## Dates -/

/-- What follows a run of digits, if it has one of the allowed lengths. -/
def afterDigits? (least most : Nat) (cs : List Char) : Option (List Char) :=
  let (digits, rest) := cs.span Char.isDigit
  if least ≤ digits.length && digits.length ≤ most then some rest else none

/-- What follows a separator and a run of digits. -/
def afterPlace? (separator : Char) (least most : Nat) : List Char → Option (List Char)
  | [] => none
  | c :: rest => if c == separator then afterDigits? least most rest else none

/-- What follows a date whose month and day have so many digits at least. -/
def afterDate? (least : Nat) (cs : List Char) : Option (List Char) := do
  let cs ← afterDigits? 4 4 cs
  let cs ← afterPlace? '-' least 2 cs
  afterPlace? '-' least 2 cs

/-- What stands between a date and a time: a letter or spaces. -/
def afterDateEnd? : List Char → Option (List Char)
  | [] => none
  | c :: rest =>
      if c == 'T' || c == 't' then some rest
      else if c == ' ' || c == '\t' then some (rest.dropWhile fun d => d == ' ' || d == '\t')
      else none

/-- What follows a time, with or without a fraction of a second. -/
def afterTime? (cs : List Char) : Option (List Char) := do
  let cs ← afterDigits? 1 2 cs
  let cs ← afterPlace? ':' 2 2 cs
  let cs ← afterPlace? ':' 2 2 cs
  match cs with
  | '.' :: fraction => return fraction.dropWhile Char.isDigit
  | cs => return cs

/-- The end of a time: nothing or a time zone. -/
def isZone (cs : List Char) : Bool :=
  match cs.dropWhile fun c => c == ' ' || c == '\t' with
  | [] => cs.isEmpty
  | ['Z'] => true
  | sign :: rest =>
      (sign == '+' || sign == '-') &&
        match afterDigits? 1 2 rest with
        | none => false
        | some [] => true
        | some rest => afterPlace? ':' 2 2 rest == some []

/-- The kind of date that a scalar writes: a day, or a day and a time. -/
def dateKind? (cs : List Char) : Option String :=
  if afterDate? 2 cs == some [] then some "datetime.date"
  else if ((afterDate? 1 cs).bind afterDateEnd? |>.bind afterTime?).any isZone then
    some "datetime.datetime"
  else none

/-- The value of a plain scalar. -/
def scalarValue? (cs : List Char) : Option Value :=
  let s := String.ofList cs
  if s == "=" || s == "<<" then none
  else if isNull s then some .null
  else match boolOf? s with
    | some b => some (.bool b)
    | none =>
        match intOf? cs with
        | some n => some (.int n)
        | none =>
            match floatOf? cs with
            | some x => some (.float x)
            | none =>
                match dateKind? cs with
                | some kind => some (.other kind false)
                | none => some (.text s)

end Yaml
end CutsceneCatalog
