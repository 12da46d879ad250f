import CutsceneCatalog.Proofs.WholeNumeral
import Mathlib.Data.List.TakeDrop

/-!
# Decimal numerals

A decimal number is written with a sign or none, digits before or behind a point, which may be
absent, and a power of ten or none (`DecimalNumeral`).  `DecimalLiteral.ofChars?` reads such
numerals and nothing else, each as the parts that it has
(`DecimalNumeral.ofChars?_eq_some_iff`).

A numeral stands on the pieces that the reader finds one after the other, and no piece begins with
what the one before it could go on with.  So one lemma for each piece says how it is found in front
of the rest, and another that what is found is such a piece.
-/

namespace CutsceneCatalog

open Text

/-! ## Numerals -/

/-- The power of ten behind a number: an `e` of either case, and a whole number. -/
structure PowerOfTen where
  capital : Bool
  exponent : WholeNumeral

/-- A decimal number as it is written. -/
structure DecimalNumeral where
  sign : Sign
  whole : List Char
  /-- The digits behind the point, if there is a point. -/
  fraction : Option (List Char)
  power : Option PowerOfTen
  whole_decimal : ∀ c ∈ whole, c.isDigit = true
  fraction_decimal : ∀ c ∈ fraction.getD [], c.isDigit = true
  some_digit : whole ≠ [] ∨ fraction.getD [] ≠ []

namespace DecimalNumeral

/-- The point and what stands behind it. -/
def pointChars : Option (List Char) → List Char
  | none => []
  | some ds => '.' :: ds

/-- The power of ten as a text. -/
def powerChars : Option PowerOfTen → List Char
  | none => []
  | some power => (if power.capital then 'E' else 'e') :: power.exponent.chars

/-- The exponent of ten; it is zero where none is written. -/
def exponentOf (power : Option PowerOfTen) : ℤ := power.elim 0 fun power => power.exponent.value

/-- The digits behind the point. -/
def fractionDigits (t : DecimalNumeral) : List Char := t.fraction.getD []

/-- The exponent of ten of a numeral. -/
def exponent (t : DecimalNumeral) : ℤ := exponentOf t.power

/-- The numeral as a text. -/
def chars (t : DecimalNumeral) : List Char :=
  t.sign.chars ++ (t.whole ++ (pointChars t.fraction ++ powerChars t.power))

/-- The parts of a numeral. -/
def literal (t : DecimalNumeral) : DecimalLiteral where
  negative := t.sign.isMinus
  whole := t.whole
  fraction := t.fractionDigits
  exponent := t.exponent

/-! ## Digits in front -/

theorem span_isDigit_append {ds rest : List Char} (hds : ∀ c ∈ ds, c.isDigit = true)
    (hrest : ∀ c ∈ rest.head?, c.isDigit = false) :
    (ds ++ rest).span Char.isDigit = (ds, rest) := by
  have hstop : rest.takeWhile Char.isDigit = [] ∧ rest.dropWhile Char.isDigit = rest := by
    cases rest with
    | nil => exact ⟨rfl, rfl⟩
    | cons c rest =>
      have hc : ¬c.isDigit = true := Bool.not_eq_true _ ▸ hrest c rfl
      exact ⟨List.takeWhile_cons_of_neg hc, List.dropWhile_cons_of_neg hc⟩
  rw [List.span_eq_takeWhile_dropWhile, List.takeWhile_append_of_pos hds,
    List.dropWhile_append_of_pos hds, hstop.1, hstop.2, List.append_nil]

theorem span_isDigit (cs : List Char) :
    cs = (cs.span Char.isDigit).1 ++ (cs.span Char.isDigit).2 ∧
      ∀ c ∈ (cs.span Char.isDigit).1, c.isDigit = true := by
  rw [List.span_eq_takeWhile_dropWhile]
  exact ⟨List.takeWhile_append_dropWhile.symm, fun c hc => List.mem_takeWhile_imp hc⟩

/-! ## The pieces -/

theorem exponentOf?_powerChars (power : Option PowerOfTen) :
    DecimalLiteral.exponentOf? (powerChars power) = some (exponentOf power) := by
  cases power with
  | none => rfl
  | some power =>
    have hmark : (if power.capital = true then 'E' else 'e') = 'e' ∨
        (if power.capital = true then 'E' else 'e') = 'E' := by
      cases power.capital with
      | false => exact .inl rfl
      | true => exact .inr rfl
    rw [powerChars, DecimalLiteral.exponentOf?, if_pos hmark, power.exponent.signedDigits?_chars]
    exact congrArg some power.exponent.withSign_decimalValue

theorem exists_of_exponentOf? {cs : List Char} {n : ℤ}
    (h : DecimalLiteral.exponentOf? cs = some n) :
    ∃ power, powerChars power = cs ∧ exponentOf power = n := by
  unfold DecimalLiteral.exponentOf? at h
  split at h
  · exact ⟨none, rfl, Option.some.inj h⟩
  · next e rest =>
    split at h
    · next hmark =>
      obtain ⟨⟨minus, digits⟩, hdigits, hvalue⟩ := Option.map_eq_some_iff.mp h
      obtain ⟨t, rfl, rfl, rfl⟩ := WholeNumeral.exists_of_signedDigits? hdigits
      refine ⟨some ⟨e == 'E', t⟩, ?_, ?_⟩
      · rcases hmark with rfl | rfl <;> rfl
      · exact t.withSign_decimalValue.symm.trans hvalue
    · cases h

/-- A power of ten begins with no digit and no point. -/
theorem head?_powerChars {power : Option PowerOfTen} {c : Char} (h : c ∈ (powerChars power).head?) :
    c.isDigit = false ∧ c ≠ '.' := by
  cases power with
  | none => contradiction
  | some power =>
    obtain rfl : (if power.capital = true then 'E' else 'e') = c := Option.some.inj h
    cases power.capital with
    | false | true => decide

theorem fractionOf_pointChars_append {fraction : Option (List Char)} {rest : List Char}
    (hdecimal : ∀ c ∈ fraction.getD [], c.isDigit = true)
    (hrest : ∀ c ∈ rest.head?, c.isDigit = false ∧ c ≠ '.') :
    DecimalLiteral.fractionOf (pointChars fraction ++ rest) = (fraction.getD [], rest) := by
  cases fraction with
  | none =>
    unfold DecimalLiteral.fractionOf
    split
    · next after h => exact absurd rfl (hrest '.' (by rw [← List.nil_append rest]; exact h ▸ rfl)).2
    · rfl
  | some ds => exact span_isDigit_append hdecimal fun c hc => (hrest c hc).1

theorem exists_of_fractionOf (cs : List Char) :
    ∃ fraction, pointChars fraction ++ (DecimalLiteral.fractionOf cs).2 = cs ∧
      fraction.getD [] = (DecimalLiteral.fractionOf cs).1 ∧
      ∀ c ∈ fraction.getD [], c.isDigit = true := by
  unfold DecimalLiteral.fractionOf
  split
  · next rest =>
    obtain ⟨hsplit, hdecimal⟩ := span_isDigit rest
    exact ⟨some (rest.span Char.isDigit).1, congrArg ('.' :: ·) hsplit.symm, rfl, hdecimal⟩
  · exact ⟨none, rfl, rfl, by simp⟩

/-! ## Reading -/

theorem ofChars?_eq (cs : List Char) :
    DecimalLiteral.ofChars? cs =
      if ((splitSign cs).2.span Char.isDigit).1 = [] ∧
          (DecimalLiteral.fractionOf ((splitSign cs).2.span Char.isDigit).2).1 = [] then none
      else
        (DecimalLiteral.exponentOf?
          (DecimalLiteral.fractionOf ((splitSign cs).2.span Char.isDigit).2).2).map fun exponent =>
            { negative := (splitSign cs).1
              whole := ((splitSign cs).2.span Char.isDigit).1
              fraction := (DecimalLiteral.fractionOf ((splitSign cs).2.span Char.isDigit).2).1
              exponent := exponent } := by
  unfold DecimalLiteral.ofChars?
  dsimp only
  split
  · rfl
  · exact Option.map_eq_bind.symm

/-- Without its sign, a numeral begins with a digit or the point. -/
theorem isSign_of_head? (t : DecimalNumeral) {c : Char}
    (h : c ∈ (t.whole ++ (pointChars t.fraction ++ powerChars t.power)).head?) :
    c ≠ '+' ∧ c ≠ '-' := by
  cases hwhole : t.whole with
  | cons d ds =>
    rw [hwhole] at h
    obtain rfl : d = c := Option.some.inj h
    exact isSign_of_isDigit (t.whole_decimal d (hwhole ▸ List.mem_cons_self))
  | nil =>
    cases hfraction : t.fraction with
    | none => exact absurd t.some_digit (by simp [hwhole, hfraction])
    | some ds =>
      rw [hwhole, hfraction] at h
      obtain rfl : '.' = c := Option.some.inj h
      decide

theorem ofChars?_chars (t : DecimalNumeral) : DecimalLiteral.ofChars? t.chars = some t.literal := by
  have hpower : ∀ c ∈ (powerChars t.power).head?, c.isDigit = false ∧ c ≠ '.' :=
    fun c hc => head?_powerChars hc
  have hpoint : ∀ c ∈ (pointChars t.fraction ++ powerChars t.power).head?, c.isDigit = false := by
    intro c hc
    cases hfraction : t.fraction with
    | none =>
      rw [hfraction] at hc
      exact (hpower c hc).1
    | some ds =>
      rw [hfraction] at hc
      obtain rfl : '.' = c := Option.some.inj hc
      rfl
  rw [ofChars?_eq, chars, t.sign.splitSign_append fun c hc => t.isSign_of_head? hc]
  dsimp only
  rw [span_isDigit_append t.whole_decimal hpoint]
  dsimp only
  rw [fractionOf_pointChars_append t.fraction_decimal hpower]
  dsimp only
  rw [if_neg (not_and_or.mpr t.some_digit), exponentOf?_powerChars]
  rfl

theorem exists_of_ofChars? {cs : List Char} {x : DecimalLiteral}
    (h : DecimalLiteral.ofChars? cs = some x) :
    ∃ t : DecimalNumeral, t.chars = cs ∧ t.literal = x := by
  obtain ⟨sign, hchars, hsign⟩ := Sign.exists_of_splitSign cs
  obtain ⟨hwhole, hwholeDecimal⟩ := span_isDigit (splitSign cs).2
  obtain ⟨fraction, hfraction, hdigits, hdecimal⟩ :=
    exists_of_fractionOf ((splitSign cs).2.span Char.isDigit).2
  rw [ofChars?_eq] at h
  split at h
  · cases h
  · next hsome =>
    obtain ⟨n, hn, rfl⟩ := Option.map_eq_some_iff.mp h
    obtain ⟨power, hpower, rfl⟩ := exists_of_exponentOf? hn
    rw [← hdigits] at hsome
    refine ⟨⟨sign, _, fraction, power, hwholeDecimal, hdecimal, not_and_or.mp hsome⟩, ?_, ?_⟩
    · rw [chars, hpower, hfraction, ← hwhole, ← hchars]
    · rw [literal, hsign]
      dsimp only [fractionDigits, exponent]
      rw [hdigits]

theorem ofChars?_eq_some_iff {cs : List Char} {x : DecimalLiteral} :
    DecimalLiteral.ofChars? cs = some x ↔ ∃ t : DecimalNumeral, t.chars = cs ∧ t.literal = x := by
  constructor
  · exact exists_of_ofChars?
  · rintro ⟨t, rfl, rfl⟩
    exact t.ofChars?_chars

theorem isBlank_of_mem_chars {t : DecimalNumeral} {c : Char} (h : c ∈ t.chars) :
    isBlank c = false := by
  simp only [chars, List.mem_append] at h
  rcases h with hsign | hwhole | hpoint | hpower
  · exact Sign.isBlank_of_mem_chars hsign
  · exact isBlank_of_isDigit (t.whole_decimal c hwhole)
  · cases hfraction : t.fraction with
    | none =>
      rw [hfraction] at hpoint
      contradiction
    | some ds =>
      have hdecimal := t.fraction_decimal
      rw [hfraction] at hpoint hdecimal
      rcases List.mem_cons.mp hpoint with rfl | hdigit
      · rfl
      · exact isBlank_of_isDigit (hdecimal c hdigit)
  · cases hp : t.power with
    | none =>
      rw [hp] at hpower
      contradiction
    | some power =>
      rw [hp] at hpower
      rcases List.mem_cons.mp hpower with rfl | hexponent
      · cases power.capital <;> rfl
      · exact WholeNumeral.isBlank_of_mem_chars hexponent

end DecimalNumeral
end CutsceneCatalog
