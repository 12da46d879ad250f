/-!
# Digits

Reading runs of decimal and hexadecimal digits.  A digit is an ASCII digit: no other script's digits
are read.  The value of a run is Horner's rule on it, so leading zeros change nothing
(`decimalValue_zero_cons`).
-/

namespace CutsceneCatalog
namespace Text

/-- The value of one decimal digit. -/
def digitValue (c : Char) : Nat := c.toNat - 48

/-- The value of a run of decimal digits, most significant first. -/
def decimalValue (ds : List Char) : Nat :=
  ds.foldl (fun n d => 10 * n + digitValue d) 0

@[simp] theorem decimalValue_nil : decimalValue [] = 0 := rfl

@[simp] theorem decimalValue_zero_cons (ds : List Char) :
    decimalValue ('0' :: ds) = decimalValue ds := rfl

/-- The value of one hexadecimal digit of either case. -/
def hexValue? (c : Char) : Option Nat :=
  if '0' ≤ c ∧ c ≤ '9' then some (c.toNat - 48)
  else if 'a' ≤ c ∧ c ≤ 'f' then some (c.toNat - 87)
  else if 'A' ≤ c ∧ c ≤ 'F' then some (c.toNat - 55)
  else none

/-- The lower-case hexadecimal digit of a number below sixteen. -/
def hexDigit (n : Nat) : Char :=
  if n < 10 then Char.ofNat (48 + n) else Char.ofNat (87 + n)

/-- The last `width` lower-case hexadecimal digits of a number, zeros in front. -/
def hexDigits : (width : Nat) → Nat → List Char
  | 0, _ => []
  | width + 1, n => hexDigits width (n / 16) ++ [hexDigit (n % 16)]

/-- A whole number in lower-case hexadecimal digits, with zeros in front up to a least width; the
sign of a negative one counts as a digit. -/
def hexNumber (width : Nat) (n : Int) : List Char :=
  let sign := if n < 0 then ['-'] else []
  let digits := Nat.toDigits 16 n.natAbs
  sign ++ List.replicate (width - sign.length - digits.length) '0' ++ digits

/-- The value of a run of hexadecimal digits, or nothing if one of them is none. -/
def hexRun? (ds : List Char) : Option Nat :=
  ds.foldl (fun acc d => acc.bind fun n => (hexValue? d).map (16 * n + ·)) (some 0)

/-- The bytes written as pairs of hexadecimal digits. -/
def hexBytes? : List Char → Option (List UInt8)
  | [] => some []
  | [_] => none
  | hi :: lo :: rest => do
      let h ← hexValue? hi
      let l ← hexValue? lo
      let more ← hexBytes? rest
      return UInt8.ofNat (16 * h + l) :: more

end Text
end CutsceneCatalog
