/-!
# Double-precision numbers

A double is a sign and a magnitude: the 63 bits below the sign bit, which order the finite
magnitudes as their values do.  Every finite magnitude stands for a whole number of *units*, a unit
being the least positive double (`units`).  So a nonnegative ratio is rounded by counting units:
`nearest` finds the closest magnitude, a tie going to the even one, and everything from the rounding
bound of the largest finite double upwards is infinite.
-/

namespace CutsceneCatalog

/-- A quotient of natural numbers rounded to the nearest whole number, a tie to the even one. -/
def roundHalfEven (num den : Nat) : Nat :=
  let q := num / den
  let twice := 2 * (num % den)
  if twice < den then q
  else if den < twice then q + 1
  else if q % 2 = 0 then q else q + 1

/-- A double-precision number, as its sign bit and the 63 bits below it. -/
structure Binary64 where
  negative : Bool
  magnitude : Nat
  bound : magnitude < Nat.pow 2 63 := by decide
deriving DecidableEq, Repr

namespace Binary64

/-- The magnitude of infinity; greater ones are not numbers. -/
def infinite : Nat := 2047 * Nat.pow 2 52

/-- The number of units in one: a unit is the least positive double. -/
def unitsPerOne : Nat := Nat.pow 2 1074

/-- The number of units of a finite magnitude. -/
def unitsOf (magnitude : Nat) : Nat :=
  if magnitude / Nat.pow 2 52 = 0 then magnitude % Nat.pow 2 52
  else (Nat.pow 2 52 + magnitude % Nat.pow 2 52) * Nat.pow 2 (magnitude / Nat.pow 2 52 - 1)

/-- The absolute value of a finite double, in units. -/
def units (x : Binary64) : Nat := unitsOf x.magnitude

/-- The magnitude closest to `num / den` units, before infinity bounds it. -/
def closest (num den : Nat) : Nat :=
  let shift := (num / den).log2 - 52
  shift * Nat.pow 2 52 + roundHalfEven num (den * Nat.pow 2 shift)

/-- The double nearest to the ratio `num / den`, of the given sign. -/
def nearest (negative : Bool) (num den : Nat) : Binary64 where
  negative := negative
  magnitude := min (closest (num * unitsPerOne) den) infinite
  bound := Nat.lt_of_le_of_lt (Nat.min_le_right ..) (by decide)

/-- The zero of the given sign. -/
def zero (negative : Bool) : Binary64 := ⟨negative, 0, by decide⟩

/-- One. -/
def one : Binary64 := ⟨false, 1023 * Nat.pow 2 52, by decide⟩

/-- One half. -/
def half : Binary64 := ⟨false, 1022 * Nat.pow 2 52, by decide⟩

/-- The infinity of the given sign. -/
def infinity (negative : Bool) : Binary64 := ⟨negative, infinite, by decide⟩

/-- The double with the given 64 bits; higher bits are dropped. -/
def ofBits (bits : Nat) : Binary64 where
  negative := bits.testBit 63
  magnitude := bits % Nat.pow 2 63
  bound := Nat.mod_lt _ (by decide)

/-- The 64 bits of a double, as a number. -/
def toBits (x : Binary64) : Nat :=
  (if x.negative then Nat.pow 2 63 else 0) + x.magnitude

/-- Not a number. -/
def isNaN (x : Binary64) : Bool := infinite < x.magnitude

/-- Neither infinite nor not a number. -/
def isFinite (x : Binary64) : Bool := x.magnitude < infinite

/-- The place of a double in the order of values; both zeros are at place 0. -/
def rank (x : Binary64) : Int :=
  if x.negative then -(x.magnitude : Int) else x.magnitude

/-- The order of doubles: nothing stands below or above what is not a number. -/
def le (x y : Binary64) : Bool :=
  !x.isNaN && !y.isNaN && decide (x.rank ≤ y.rank)

/-- The product of a finite double and a natural number, rounded to a double. -/
def scale (x : Binary64) (factor : Nat) : Binary64 :=
  nearest x.negative (x.units * factor) unitsPerOne

/-- The whole number nearest to the absolute value of a finite double, a tie to the even one. -/
def roundToNat (x : Binary64) : Nat :=
  roundHalfEven x.units unitsPerOne

/-- The whole number nearest to a finite double, a tie to the even one. -/
def roundToInt (x : Binary64) : Int :=
  if x.negative then -(x.roundToNat : Int) else x.roundToNat

@[simp] theorem negative_nearest (s : Bool) (n d : Nat) : (nearest s n d).negative = s := rfl

theorem isNaN_nearest (s : Bool) (n d : Nat) : (nearest s n d).isNaN = false := by
  have h : min (closest (n * unitsPerOne) d) infinite ≤ infinite := Nat.min_le_right ..
  exact decide_eq_false (Nat.not_lt.mpr h)

end Binary64

end CutsceneCatalog
