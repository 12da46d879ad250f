import CutsceneCatalog.Proofs.DecimalNumeral
import CutsceneCatalog.Proofs.NearestDouble
import Mathlib.Algebra.Order.Field.Power
import Mathlib.Data.Nat.Digits.Lemmas

/-!
# The values of decimal numerals

A decimal numeral denotes a rational number (`DecimalNumeral.value`), and it is read as the double
nearest to it (`DecimalLiteral.isRounded_toBinary64`).  The reader does not raise ten to a power so
great or so small that the outcome is settled without; that this agrees with rounding is a matter of
a few bounds.

Since rounding is settled by the number alone and keeps the order, so is reading:
`floatOfText_of_numerals`.
-/

namespace CutsceneCatalog

open Text

/-! ## Rounding without computing -/

namespace Binary64

theorem isRounded_zero_of_small (negative : Bool) {x : ℚ} (hnonneg : 0 ≤ x)
    (hsmall : x * unitsPerOne ≤ 1 / 2) : (zero negative).IsRounded x := by
  have hzero : valueOf 0 = 0 := by rw [valueOf, unitsOf_zero, Nat.cast_zero]
  have hunits : 0 ≤ x * unitsPerOne := mul_nonneg hnonneg (Nat.cast_nonneg _)
  refine ⟨0, ⟨fun other => ?_, fun _ _ _ => rfl⟩, rfl⟩
  rw [hzero, zero_sub, abs_neg, abs_of_nonneg hunits]
  cases other with
  | zero => rw [hzero, zero_sub, abs_neg, abs_of_nonneg hunits]
  | succ n =>
    have hpos : 1 ≤ unitsOf (n + 1) := Nat.zero_lt_of_lt (unitsOf_lt_succ n)
    have hone : (1 : ℚ) ≤ valueOf (n + 1) := Nat.one_le_cast.mpr hpos
    rw [abs_of_nonneg (by linarith)]
    linarith

theorem isRounded_infinity_of_great (negative : Bool) {num den : ℕ} (hden : 0 < den)
    (hgreat : valueOf infinite ≤ num / den * unitsPerOne) :
    (infinity negative).IsRounded (num / den) := by
  obtain ⟨place, hplace, -⟩ := isRounded_nearest negative num hden
  have hle : infinite ≤ place :=
    (IsNearest.self valueOf_strictMono infinite).le_of_le valueOf_strictMono hplace hgreat
  exact ⟨place, hplace, (Nat.min_eq_right hle).symm⟩

/-- The double of the other sign. -/
def neg (x : Binary64) : Binary64 := { x with negative := !x.negative }

theorem IsRounded.neg {double : Binary64} {x : ℚ} (h : double.IsRounded x) :
    double.neg.IsRounded x := h

/-- Doubles rounded from numbers with their signs are in the order of those. -/
theorem IsRounded.le_of_le {double double' : Binary64} {x y : ℚ} (h : double.IsRounded x)
    (h' : double'.IsRounded y) (hx : 0 ≤ x) (hy : 0 ≤ y)
    (hle : (if double.negative then -x else x) ≤ if double'.negative then -y else y) :
    double.le double' = true := by
  have hrank : double.rank ≤ double'.rank := by
    unfold rank
    cases hsign : double.negative <;> cases hsign' : double'.negative <;>
      simp only [hsign, hsign', if_true, if_false, Bool.false_eq_true] at hle ⊢
    · exact Int.ofNat_le.mpr (h.magnitude_le h' hle)
    · -- Both numbers are zero.
      have hzero := isRounded_zero_of_small false le_rfl (by rw [zero_mul]; norm_num)
      have hm := h.magnitude_le hzero (by linarith)
      have hm' := h'.magnitude_le hzero (by linarith)
      have hmagnitude : (zero false).magnitude = 0 := rfl
      omega
    · omega
    · have hm := h'.magnitude_le h (neg_le_neg_iff.mp hle)
      omega
  rw [le, h.isNaN_eq_false, h'.isNaN_eq_false]
  exact decide_eq_true hrank

end Binary64

/-! ## The number that the parts of a numeral denote -/

theorem numberOf_lt_pow {ds : List Char} (h : ∀ c ∈ ds, c.isDigit = true) :
    numberOf ds < 10 ^ ds.length := by
  have hsmall : ∀ n ∈ ds.reverse.map digitValue, n < 10 := by
    intro n hn
    obtain ⟨c, hc, rfl⟩ := List.mem_map.mp hn
    have hnine : c.toNat ≤ 57 := (Char.isDigit_iff_toNat.mp (h c (List.mem_reverse.mp hc))).2
    unfold digitValue
    omega
  have hlt := Nat.ofDigits_lt_base_pow_length (by decide) hsmall
  rwa [List.length_map, List.length_reverse] at hlt

namespace DecimalLiteral

/-- The number that the parts denote, without its sign. -/
def absolute (x : DecimalLiteral) : ℚ := x.digits * 10 ^ x.scale

theorem absolute_nonneg (x : DecimalLiteral) : 0 ≤ x.absolute :=
  mul_nonneg (Nat.cast_nonneg _) (zpow_nonneg (by norm_num) _)

theorem cast_pow_ten (n : ℕ) : ((Nat.pow 10 n : ℕ) : ℚ) = 10 ^ (n : ℤ) := by
  rw [zpow_natCast]
  exact_mod_cast Nat.cast_pow 10 n

theorem absolute_of_scale_nonneg {x : DecimalLiteral} (h : 0 ≤ x.scale) :
    x.absolute = (x.digits * Nat.pow 10 x.scale.toNat : ℕ) / (1 : ℕ) := by
  rw [Nat.cast_one, div_one, Nat.cast_mul, cast_pow_ten, Int.toNat_of_nonneg h, absolute]

theorem absolute_of_scale_neg {x : DecimalLiteral} (h : x.scale < 0) :
    x.absolute = x.digits / (Nat.pow 10 (-x.scale).toNat : ℕ) := by
  rw [cast_pow_ten, Int.toNat_of_nonneg (by omega), zpow_neg, div_inv_eq_mul, absolute]

theorem negative_toBinary64 (x : DecimalLiteral) : x.toBinary64.negative = x.negative := by
  unfold toBinary64
  split
  · rfl
  · split
    · rfl
    · split
      · rfl
      · split <;> rfl

theorem infinite_le_units :
    Binary64.valueOf Binary64.infinite ≤ 10 ^ ((310 : ℕ) : ℤ) * Binary64.unitsPerOne := by
  rw [← cast_pow_ten, Binary64.valueOf, ← Nat.cast_mul]
  exact Nat.cast_le.mpr (by decide +kernel)

theorem two_units_le : 2 * (Binary64.unitsPerOne : ℚ) ≤ 10 ^ ((400 : ℕ) : ℤ) := by
  rw [← cast_pow_ten, ← Nat.cast_two, ← Nat.cast_mul]
  exact Nat.cast_le.mpr (by decide +kernel)

/-- From `10 ^ 310` upwards everything is infinite. -/
theorem infinite_le_absolute {x : DecimalLiteral} (hdigits : x.digits ≠ 0) (h : 310 ≤ x.scale) :
    Binary64.valueOf Binary64.infinite ≤ x.absolute * Binary64.unitsPerOne := by
  have hgreat : 10 ^ ((310 : ℕ) : ℤ) ≤ x.absolute := by
    have hone : (1 : ℚ) ≤ x.digits := Nat.one_le_cast.mpr (Nat.pos_of_ne_zero hdigits)
    calc (10 : ℚ) ^ ((310 : ℕ) : ℤ) ≤ 10 ^ x.scale := zpow_le_zpow_right₀ (by norm_num) h
      _ ≤ x.absolute := le_mul_of_one_le_left (zpow_nonneg (by norm_num) _) hone
  exact infinite_le_units.trans (mul_le_mul_of_nonneg_right hgreat (Nat.cast_nonneg _))

/-- Below `10 ^ -400` everything is less than half a unit. -/
theorem absolute_le_half {x : DecimalLiteral}
    (hdecimal : ∀ c ∈ x.whole ++ x.fraction, c.isDigit = true)
    (h : x.scale + (x.whole ++ x.fraction).length ≤ -400) :
    x.absolute * Binary64.unitsPerOne ≤ 1 / 2 := by
  have hten : (0 : ℚ) < 10 := by norm_num
  have hdigits : (x.digits : ℚ) ≤ 10 ^ (x.whole ++ x.fraction).length := by
    rw [digits, decimalValue_eq_numberOf]
    exact_mod_cast (numberOf_lt_pow hdecimal).le
  have hlow : x.absolute ≤ 10 ^ (-((400 : ℕ) : ℤ)) := by
    calc x.absolute ≤ 10 ^ ((x.whole ++ x.fraction).length : ℤ) * 10 ^ x.scale := by
          rw [absolute, zpow_natCast]
          exact mul_le_mul_of_nonneg_right hdigits (zpow_nonneg hten.le _)
      _ = 10 ^ ((x.whole ++ x.fraction).length + x.scale) := (zpow_add₀ hten.ne' _ _).symm
      _ ≤ 10 ^ (-((400 : ℕ) : ℤ)) := zpow_le_zpow_right₀ (by norm_num) (by omega)
  have hunits := (le_div_iff₀' (by norm_num)).mpr two_units_le
  calc x.absolute * Binary64.unitsPerOne ≤ 10 ^ (-((400 : ℕ) : ℤ)) * Binary64.unitsPerOne :=
        mul_le_mul_of_nonneg_right hlow (Nat.cast_nonneg _)
    _ ≤ 10 ^ (-((400 : ℕ) : ℤ)) * (10 ^ ((400 : ℕ) : ℤ) / 2) :=
        mul_le_mul_of_nonneg_left hunits (zpow_nonneg hten.le _)
    _ = 1 / 2 := by rw [← mul_div_assoc, ← zpow_add₀ hten.ne', neg_add_cancel, zpow_zero]

/-- The parts of a numeral are rounded to the nearest double of what they denote, whether or not the
power of ten is computed. -/
theorem isRounded_toBinary64 (x : DecimalLiteral)
    (hdecimal : ∀ c ∈ x.whole ++ x.fraction, c.isDigit = true) :
    x.toBinary64.IsRounded x.absolute := by
  unfold toBinary64
  split
  · next hdigits =>
    have hzero : x.absolute = 0 := by rw [absolute, hdigits, Nat.cast_zero, zero_mul]
    rw [hzero]
    exact Binary64.isRounded_zero_of_small x.negative le_rfl (by rw [zero_mul]; norm_num)
  next hdigits =>
  split
  · next hscale =>
    have hinfinite := infinite_le_absolute hdigits (Int.le_of_lt hscale)
    rw [absolute_of_scale_nonneg (by omega)] at hinfinite ⊢
    exact Binary64.isRounded_infinity_of_great x.negative Nat.one_pos hinfinite
  split
  · next hsmall =>
    exact Binary64.isRounded_zero_of_small x.negative x.absolute_nonneg
      (absolute_le_half hdecimal (Int.le_of_lt hsmall))
  split
  · next hnonneg =>
    rw [absolute_of_scale_nonneg hnonneg]
    exact Binary64.isRounded_nearest x.negative _ Nat.one_pos
  · next hneg =>
    rw [absolute_of_scale_neg (Int.not_le.mp hneg)]
    exact Binary64.isRounded_nearest x.negative _ (Nat.pow_pos (by decide))

end DecimalLiteral

/-! ## The number that a numeral denotes -/

namespace DecimalNumeral

variable {t t' : DecimalNumeral}

/-- The number that a numeral denotes, without its sign. -/
def absolute (t : DecimalNumeral) : ℚ :=
  (numberOf t.whole + numberOf t.fractionDigits / 10 ^ t.fractionDigits.length) * 10 ^ t.exponent

/-- The number that a numeral denotes. -/
def value (t : DecimalNumeral) : ℚ := if t.sign.isMinus then -t.absolute else t.absolute

theorem absolute_literal (t : DecimalNumeral) : t.literal.absolute = t.absolute := by
  have hten : (10 : ℚ) ≠ 0 := by norm_num
  have hdigits : (t.literal.digits : ℚ) =
      numberOf t.whole * 10 ^ t.fractionDigits.length + numberOf t.fractionDigits := by
    rw [DecimalLiteral.digits, decimalValue_eq_numberOf, literal, numberOf_append]
    push_cast
    rfl
  have hscale : t.literal.scale = t.exponent - (t.fractionDigits.length : ℤ) := rfl
  rw [DecimalLiteral.absolute, hdigits, hscale, zpow_sub₀ hten, zpow_natCast, absolute]
  field_simp

theorem absolute_nonneg (t : DecimalNumeral) : 0 ≤ t.absolute :=
  t.absolute_literal ▸ t.literal.absolute_nonneg

theorem abs_value (t : DecimalNumeral) : |t.value| = t.absolute := by
  unfold value
  split
  · rw [abs_neg, abs_of_nonneg t.absolute_nonneg]
  · exact abs_of_nonneg t.absolute_nonneg

/-- Two numerals that differ only in ways that are not to matter. -/
inductive Respells (t t' : DecimalNumeral) : Prop
  /-- A plus sign, the case of the `e`, the digits of the exponent, or a point with nothing behind
  it. -/
  | sameDigits (whole : t'.whole = t.whole) (fraction : t'.fractionDigits = t.fractionDigits)
      (exponent : t'.exponent = t.exponent)
  | zeroInFront (whole : t'.whole = '0' :: t.whole)
      (fraction : t'.fractionDigits = t.fractionDigits) (exponent : t'.exponent = t.exponent)
  | zeroBehind (whole : t'.whole = t.whole)
      (fraction : t'.fractionDigits = t.fractionDigits ++ ['0'])
      (exponent : t'.exponent = t.exponent)
  /-- The point stands one place farther left, and the exponent is greater by one. -/
  | pointMoved {digit : Char} (whole : t.whole = t'.whole ++ [digit])
      (fraction : t'.fractionDigits = digit :: t.fractionDigits)
      (exponent : t'.exponent = t.exponent + 1)

theorem Respells.absolute_eq (h : t.Respells t') : t'.absolute = t.absolute := by
  cases h with
  | sameDigits whole fraction exponent => rw [absolute, absolute, whole, fraction, exponent]
  | zeroInFront whole fraction exponent =>
    have hzero : numberOf ('0' :: t.whole) = numberOf t.whole := numberOf_replicate_append 1 t.whole
    rw [absolute, absolute, whole, fraction, exponent, hzero]
  | zeroBehind whole fraction exponent =>
    have hzero : (numberOf (t.fractionDigits ++ ['0']) : ℚ) = numberOf t.fractionDigits * 10 := by
      have hdigit : numberOf ['0'] = 0 := rfl
      rw [numberOf_append, hdigit, List.length_singleton, pow_one, Nat.add_zero]
      exact Nat.cast_mul ..
    rw [absolute, absolute, whole, fraction, exponent, hzero, List.length_append,
      List.length_singleton, pow_succ, mul_div_mul_right _ _ (by norm_num)]
  | pointMoved whole fraction exponent =>
    -- The digits on both sides of the point are the same, and so is the scale.
    have hdigits : t'.literal.digits = t.literal.digits := by
      simp only [DecimalLiteral.digits, literal, whole, fraction, List.append_assoc,
        List.singleton_append]
    have hscale : t'.literal.scale = t.literal.scale := by
      simp only [DecimalLiteral.scale, literal, fraction, exponent, List.length_cons]
      omega
    rw [← absolute_literal, ← absolute_literal, DecimalLiteral.absolute, DecimalLiteral.absolute,
      hdigits, hscale]

/-! ## Reading -/

/-- The double that a numeral is read as. -/
def double (t : DecimalNumeral) : Binary64 := t.literal.toBinary64

theorem negative_double (t : DecimalNumeral) : t.double.negative = t.sign.isMinus :=
  t.literal.negative_toBinary64

theorem isRounded_double (t : DecimalNumeral) : t.double.IsRounded t.absolute := by
  rw [← t.absolute_literal]
  apply t.literal.isRounded_toBinary64
  intro c hc
  rcases List.mem_append.mp hc with hwhole | hfraction
  · exact t.whole_decimal c hwhole
  · exact t.fraction_decimal c hfraction

theorem double_eq (hsign : t'.sign.isMinus = t.sign.isMinus) (h : t'.absolute = t.absolute) :
    t'.double = t.double := by
  apply t'.isRounded_double.unique
  · rw [h]
    exact t.isRounded_double
  · rw [negative_double, negative_double, hsign]

theorem double_le_double (h : t.value ≤ t'.value) : t.double.le t'.double = true := by
  apply t.isRounded_double.le_of_le t'.isRounded_double t.absolute_nonneg t'.absolute_nonneg
  rw [negative_double, negative_double]
  exact h

variable {text : String}

theorem floatOfText_of_padded (h : Padded t.chars text.toList) :
    floatOfText text = .ok t.double := by
  unfold floatOfText
  rw [h.trimChars_eq fun c hc => isBlank_of_mem_chars hc, t.ofChars?_chars]
  rfl

theorem floatOfText_of_not_padded (h : ∀ t : DecimalNumeral, ¬Padded t.chars text.toList) :
    floatOfText text = .error (.notFloat text) := by
  unfold floatOfText
  split
  · rfl
  · next literal hliteral =>
    obtain ⟨t, hchars, -⟩ := exists_of_ofChars? hliteral
    exact absurd (hchars ▸ padded_trimChars text.toList) (h t)

/-- A numeral with a minus put in front is read as the double of the other sign. -/
theorem floatOfText_of_minus (hsign : t.sign = .absent) (h : Padded ('-' :: t.chars) text.toList) :
    floatOfText text = .ok t.double.neg := by
  have hchars : ({ t with sign := .minus } : DecimalNumeral).chars = '-' :: t.chars := by
    rw [chars, chars, hsign]
    rfl
  rw [floatOfText_of_padded (hchars ▸ h)]
  have hneg : t.double.neg.negative = !t.double.negative := rfl
  have hdouble : ({ t with sign := .minus } : DecimalNumeral).double = t.double.neg := by
    refine (isRounded_double _).unique t.isRounded_double.neg ?_
    rw [hneg, negative_double, negative_double, hsign]
    rfl
  rw [hdouble]

end DecimalNumeral

/-- A text is read as a decimal number just if it is a decimal numeral with blanks around it; any
other is refused.  The double is the one nearest to the number that the numeral denotes and has its
sign.  So it depends on no more than these two, whichever way they are written; a minus in front
changes its sign; and a numeral that denotes no greater number is read as no greater double. -/
theorem floatOfText_of_numerals :
    (∀ text, ((∃ x, floatOfText text = .ok x) ↔
          ∃ t : DecimalNumeral, Padded t.chars text.toList) ∧
        ((∀ t : DecimalNumeral, ¬Padded t.chars text.toList) →
          floatOfText text = .error (.notFloat text))) ∧
      ∀ (text : String) (t : DecimalNumeral), Padded t.chars text.toList →
        ∃ x, floatOfText text = .ok x ∧
          (x.isNaN = false ∧ x.negative = t.sign.isMinus ∧ x.IsRounded |t.value|) ∧
          (∀ text' : String, t.sign = .absent → Padded ('-' :: t.chars) text'.toList →
            floatOfText text' = .ok x.neg) ∧
          ∀ (text' : String) (t' : DecimalNumeral), Padded t'.chars text'.toList →
            ∃ x', floatOfText text' = .ok x' ∧
              (t'.sign.isMinus = t.sign.isMinus → t'.value = t.value ∨ t.Respells t' → x' = x) ∧
              (t.value ≤ t'.value → x.le x' = true) := by
  refine ⟨fun text => ⟨⟨?_, ?_⟩, DecimalNumeral.floatOfText_of_not_padded⟩, ?_⟩
  · rintro ⟨x, hread⟩
    by_contra hnone
    rw [DecimalNumeral.floatOfText_of_not_padded (not_exists.mp hnone)] at hread
    cases hread
  · rintro ⟨t, ht⟩
    exact ⟨t.double, DecimalNumeral.floatOfText_of_padded ht⟩
  intro text t ht
  refine ⟨t.double, DecimalNumeral.floatOfText_of_padded ht, ⟨t.isRounded_double.isNaN_eq_false,
    t.negative_double, ?_⟩, fun text' hsign h => DecimalNumeral.floatOfText_of_minus hsign h, ?_⟩
  · rw [t.abs_value]
    exact t.isRounded_double
  intro text' t' ht'
  refine ⟨t'.double, DecimalNumeral.floatOfText_of_padded ht', fun hsign hsame => ?_,
    DecimalNumeral.double_le_double⟩
  apply DecimalNumeral.double_eq hsign
  rcases hsame with hvalue | hrespells
  · rw [← t'.abs_value, ← t.abs_value, hvalue]
  · exact hrespells.absolute_eq

namespace DecimalNumeral

/-- `1.50e+1`. -/
def fifteenWithPower : DecimalNumeral where
  sign := .absent
  whole := ['1']
  fraction := some ['5', '0']
  power := some ⟨false, .plus, ['1'], by decide, List.all_eq_true.mp rfl⟩
  whole_decimal := List.all_eq_true.mp rfl
  fraction_decimal := List.all_eq_true.mp rfl
  some_digit := .inl (by decide)

/-- `15` and, if there are any, more digits behind a point. -/
def fifteen (fraction : Option (List Char))
    (decimal : ∀ c ∈ fraction.getD [], c.isDigit = true) : DecimalNumeral where
  sign := .absent
  whole := ['1', '5']
  fraction := fraction
  power := none
  whole_decimal := List.all_eq_true.mp rfl
  fraction_decimal := decimal
  some_digit := .inl (by decide)

theorem value_fifteenWithPower : fifteenWithPower.value = 15 := by
  have hone : numberOf ['1'] = 1 := rfl
  have hfifty : numberOf ['5', '0'] = 50 := rfl
  have hexponent : fifteenWithPower.exponent = 1 := rfl
  show (numberOf ['1'] + numberOf ['5', '0'] / 10 ^ 2) * 10 ^ fifteenWithPower.exponent = (15 : ℚ)
  rw [hone, hfifty, hexponent]
  norm_num

theorem value_fifteen (fraction : Option (List Char))
    (decimal : ∀ c ∈ fraction.getD [], c.isDigit = true) :
    (fifteen fraction decimal).value =
      15 + numberOf (fraction.getD []) / 10 ^ (fraction.getD []).length := by
  have hfifteen : numberOf ['1', '5'] = 15 := rfl
  show (numberOf ['1', '5'] + numberOf (fraction.getD []) / 10 ^ (fraction.getD []).length) *
    (10 : ℚ) ^ (0 : ℤ) = _
  rw [hfifteen, zpow_zero, mul_one, Nat.cast_ofNat]

end DecimalNumeral

open DecimalNumeral in
/-- One number written in two ways, its opposite, and a greater one. -/
theorem floatOfText_fifteenWithPower :
    ∃ x, floatOfText " 1.50e+1\n" = .ok x ∧ x.negative = false ∧ x.IsRounded 15 ∧
      floatOfText "-1.50e+1" = .ok x.neg ∧ floatOfText "15" = .ok x ∧
      ∃ y, floatOfText "15.5" = .ok y ∧ x.le y = true := by
  obtain ⟨x, hread, ⟨-, hsign, hrounded⟩, hminus, hother⟩ :=
    floatOfText_of_numerals.2 " 1.50e+1\n" fifteenWithPower
      ⟨[' '], ['\n'], rfl, List.all_eq_true.mp rfl, List.all_eq_true.mp rfl⟩
  rw [value_fifteenWithPower, abs_of_nonneg (by norm_num)] at hrounded
  obtain ⟨x', hread', hsame, -⟩ := hother "15" (fifteen none (by simp))
    ⟨[], [], rfl, by simp, by simp⟩
  obtain ⟨y, hready, -, hle⟩ := hother "15.5" (fifteen (some ['5']) (List.all_eq_true.mp rfl))
    ⟨[], [], rfl, by simp, by simp⟩
  rw [value_fifteenWithPower, value_fifteen] at hsame hle
  have hzero : numberOf [] = 0 := rfl
  have hx : x' = x := hsame rfl (.inl (by simp [hzero]))
  refine ⟨x, hread, hsign, hrounded, hminus "-1.50e+1" rfl ⟨[], [], rfl, by simp, by simp⟩,
    hx ▸ hread', y, hready, hle ?_⟩
  exact le_add_of_nonneg_right (div_nonneg (Nat.cast_nonneg _) (by norm_num))

end CutsceneCatalog
