import CutsceneCatalog.Scalar

/-!
# Colors

A color has a red, a green, a blue and an alpha channel, each a double from 0 to 1 (`Channel`).  The
HTML notation writes a channel as a byte: reading divides the byte by 255, writing multiplies by 255
and rounds a half to the even neighbor, and both steps round to the nearest double.
-/

namespace CutsceneCatalog

open Text

/-- A color channel: a double from 0 to 1, either zero included. -/
structure Channel where
  value : Binary64
  nonneg : (Binary64.zero false).le value = true
  le_one : value.le .one = true
deriving DecidableEq, Repr

/-- The two ways in which a double fails to be a channel. -/
inductive ChannelFault
  /-- Greater than 1, or not a number. -/
  | aboveOne
  | belowZero
deriving DecidableEq, Repr

namespace Channel

/-- A double as a channel; the upper bound is looked at first. -/
def ofBinary64 (x : Binary64) : Except ChannelFault Channel :=
  if upper : x.le .one = true then
    if lower : (Binary64.zero false).le x = true then .ok ⟨x, lower, upper⟩ else .error .belowZero
  else .error .aboveOne

/-- The channel 0. -/
def zero : Channel := ⟨.zero false, by decide, by decide⟩

/-- The channel 1. -/
def one : Channel := ⟨.one, by decide, by decide⟩

/-- The channel 0.5. -/
def half : Channel := ⟨.half, by decide, by decide⟩

private theorem nearest_byte_in_range : ∀ b : Fin 256,
    (Binary64.zero false).le (.nearest false b 255) = true
      ∧ (Binary64.nearest false b 255).le .one = true := by
  decide +kernel

/-- The channel that a byte denotes. -/
def ofByte (b : Fin 256) : Channel where
  value := .nearest false b 255
  nonneg := (nearest_byte_in_range b).1
  le_one := (nearest_byte_in_range b).2

/-- The number written for a channel. -/
def toByte (c : Channel) : Int := (c.value.scale 255).roundToInt

end Channel

/-- A color with an alpha channel. -/
structure Color where
  r : Channel
  g : Channel
  b : Channel
  a : Channel
deriving DecidableEq, Repr

namespace Color

/-- The color all of whose channels are 0. -/
def transparentBlack : Color := ⟨.zero, .zero, .zero, .zero⟩

/-- Opaque white. -/
def white : Color := ⟨.one, .one, .one, .one⟩

/-- The opaque gray whose channels are exactly one half. -/
def middleGray : Color := ⟨.half, .half, .half, .one⟩

/-- The eight digits for which 3, 4, 6 or 8 digits stand: short forms double each digit, and a
missing alpha is opaque. -/
def fullDigits? (digits : List Char) : Option (List Char) :=
  match digits with
  | [r, g, b] => some [r, r, g, g, b, b, 'f', 'f']
  | [r, g, b, a] => some [r, r, g, g, b, b, a, a]
  | [_, _, _, _, _, _] => some (digits ++ ['f', 'f'])
  | [_, _, _, _, _, _, _, _] => some digits
  | _ => none

/-- The byte written by two hexadecimal digits. -/
def byte? (hi lo : Char) : Option (Fin 256) := do
  let h ← hexValue? hi
  let l ← hexValue? lo
  return Fin.ofNat 256 (16 * h + l)

/-- The color written by eight hexadecimal digits. -/
def ofDigits? : List Char → Option Color
  | [r₁, r₂, g₁, g₂, b₁, b₂, a₁, a₂] => do
      let r ← byte? r₁ r₂
      let g ← byte? g₁ g₂
      let b ← byte? b₁ b₂
      let a ← byte? a₁ a₂
      return ⟨.ofByte r, .ofByte g, .ofByte b, .ofByte a⟩
  | _ => none

/-- The text without the `#` that may stand in front. -/
def dropHash : List Char → List Char
  | '#' :: rest => rest
  | rest => rest

/-- Reads a color in HTML notation: `RGB`, `RGBA`, `RRGGBB` or `RRGGBBAA`, with or without `#`. -/
def ofHtml (text : String) : Except ScalarError Color :=
  match (fullDigits? (dropHash (trimChars text.toList))).bind ofDigits? with
  | some color => .ok color
  | none => .error (.notColor text)

/-- The HTML notation of a color: the numbers of its channels, each with two digits at least. -/
def toHtml (color : Color) : String :=
  String.ofList ([color.r, color.g, color.b, color.a].flatMap fun c => hexNumber 2 c.toByte)

/-- The color with the given doubles as channels, or every channel that is out of range with its
fault. -/
def ofChannels (r g b a : Binary64) : Except (List (String × ChannelFault)) Color :=
  match Channel.ofBinary64 r, Channel.ofBinary64 g, Channel.ofBinary64 b, Channel.ofBinary64 a with
  | .ok r, .ok g, .ok b, .ok a => .ok ⟨r, g, b, a⟩
  | r', g', b', a' =>
      let channels := [("r", r'), ("g", g'), ("b", b'), ("a", a')]
      .error (channels.filterMap fun (name, channel) =>
        match channel with
        | .ok _ => none
        | .error fault => some (name, fault))

end Color

end CutsceneCatalog
