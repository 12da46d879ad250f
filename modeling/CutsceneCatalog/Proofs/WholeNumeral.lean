import CutsceneCatalog.Element.Field
import CutsceneCatalog.Proofs.FieldReading
import CutsceneCatalog.Proofs.Trimming
import Mathlib.Data.List.Induction
import Mathlib.Data.Nat.Digits.Defs

/-!
# Whole numbers as texts

A whole number is written with a sign or none and one ASCII digit at least (`WholeNumeral`), each
digit counting ten times as much as the one behind it (`Text.numberOf`).  A text that is such a
numeral with blanks around it is read as its value, if the digits are not too many and the value has
32 bits.  `intOfText_of_numerals` says so, and that every other text is refused, so that a field has
its default.
-/

namespace CutsceneCatalog

open Text

/-! ## Digits -/

namespace Text

theorem isBlank_of_isDigit {c : Char} (h : c.isDigit = true) : isBlank c = false := by
  have hrange : 48 ≤ c.toNat ∧ c.toNat ≤ 57 := by
    simpa [Char.isDigit, UInt32.le_iff_toNat_le] using h
  simp [isBlank]
  omega

theorem decimalValue_toDigits (n : ℕ) : decimalValue (Nat.toDigits 10 n) = n :=
  Nat.ofDigitChars_ten_toDigits

/-- The number that decimal digits denote, the last of them counting ones. -/
def numberOf (ds : List Char) : ℕ := Nat.ofDigits 10 (ds.reverse.map digitValue)

theorem numberOf_append (ds es : List Char) :
    numberOf (ds ++ es) = numberOf ds * 10 ^ es.length + numberOf es := by
  have hlength : (es.reverse.map digitValue).length = es.length := by simp
  rw [numberOf, List.reverse_append, List.map_append, Nat.ofDigits_append, hlength, Nat.add_comm,
    Nat.mul_comm]
  rfl

theorem decimalValue_eq_numberOf (ds : List Char) : decimalValue ds = numberOf ds := by
  induction ds using List.reverseRecOn with
  | nil => rfl
  | append_singleton ds d ih =>
    have hfold : decimalValue (ds ++ [d]) = 10 * decimalValue ds + digitValue d :=
      List.foldl_concat ..
    have hlast : numberOf [d] = digitValue d := Nat.ofDigits_singleton
    rw [hfold, ih, numberOf_append, hlast, Nat.mul_comm]
    rfl

/-- Zeros in front change nothing. -/
theorem numberOf_replicate_append (zeros : ℕ) (ds : List Char) :
    numberOf (List.replicate zeros '0' ++ ds) = numberOf ds := by
  have hzeros : numberOf (List.replicate zeros '0') = 0 := by
    induction zeros with
    | zero => rfl
    | succ n ih =>
      have hzero : numberOf ['0'] = 0 := rfl
      rw [List.replicate_succ', numberOf_append, ih, hzero]
      rfl
  rw [numberOf_append, hzeros, Nat.zero_mul, Nat.zero_add]

end Text

/-! ## Signs -/

/-- The sign in front of a numeral, if there is one. -/
inductive Sign
  | absent
  | plus
  | minus
deriving DecidableEq, Repr

namespace Sign

/-- What a sign is written as. -/
def chars : Sign → List Char
  | .absent => []
  | .plus => ['+']
  | .minus => ['-']

/-- Whether a sign makes a number negative. -/
def isMinus : Sign → Bool
  | .minus => true
  | .absent | .plus => false

/-- The number that a sign makes of a natural number. -/
def signed (sign : Sign) (n : ℕ) : ℤ := if sign.isMinus then -(n : ℤ) else n

theorem splitSign_append (sign : Sign) {rest : List Char}
    (h : ∀ c ∈ rest.head?, c ≠ '+' ∧ c ≠ '-') :
    splitSign (sign.chars ++ rest) = (sign.isMinus, rest) := by
  cases sign with
  | plus | minus => rfl
  | absent =>
    rw [chars, List.nil_append]
    unfold splitSign
    split
    · exact absurd rfl (h '+' rfl).1
    · exact absurd rfl (h '-' rfl).2
    · rfl

theorem exists_of_splitSign (cs : List Char) :
    ∃ sign : Sign, cs = sign.chars ++ (splitSign cs).2 ∧ sign.isMinus = (splitSign cs).1 := by
  unfold splitSign
  split
  · exact ⟨.plus, rfl, rfl⟩
  · exact ⟨.minus, rfl, rfl⟩
  · exact ⟨.absent, rfl, rfl⟩

theorem isBlank_of_mem_chars {sign : Sign} {c : Char} (h : c ∈ sign.chars) : isBlank c = false := by
  cases sign with
  | absent => contradiction
  | plus | minus =>
    rw [List.mem_singleton.mp h]
    rfl

end Sign

theorem isSign_of_isDigit {c : Char} (h : c.isDigit = true) : c ≠ '+' ∧ c ≠ '-' := by
  constructor <;>
  · rintro rfl
    exact absurd h (by decide)

/-! ## Whole numerals -/

/-- A whole number as it is written: a sign or none, and one digit at least. -/
structure WholeNumeral where
  sign : Sign
  digits : List Char
  nonempty : digits ≠ []
  decimal : ∀ c ∈ digits, c.isDigit = true

namespace WholeNumeral

/-- The numeral as a text. -/
def chars (t : WholeNumeral) : List Char := t.sign.chars ++ t.digits

/-- The number that a numeral denotes. -/
def value (t : WholeNumeral) : ℤ := t.sign.signed (numberOf t.digits)

theorem withSign_decimalValue (t : WholeNumeral) :
    withSign t.sign.isMinus (decimalValue t.digits) = t.value := by
  rw [decimalValue_eq_numberOf]
  rfl

theorem signedDigits?_chars (t : WholeNumeral) :
    signedDigits? t.chars = some (t.sign.isMinus, t.digits) := by
  have hfirst : ∀ c ∈ t.digits.head?, c ≠ '+' ∧ c ≠ '-' := fun c hc =>
    isSign_of_isDigit (t.decimal c (List.mem_of_mem_head? hc))
  rw [signedDigits?, chars, t.sign.splitSign_append hfirst]
  exact if_pos ⟨t.nonempty, List.all_eq_true.mpr t.decimal⟩

/-- What is read as a sign and digits is a numeral. -/
theorem exists_of_signedDigits? {cs ds : List Char} {minus : Bool}
    (h : signedDigits? cs = some (minus, ds)) :
    ∃ t : WholeNumeral, t.chars = cs ∧ t.sign.isMinus = minus ∧ t.digits = ds := by
  obtain ⟨sign, hchars, hsign⟩ := Sign.exists_of_splitSign cs
  unfold signedDigits? at h
  dsimp only at h
  split at h
  · next hdigits =>
    obtain ⟨rfl, rfl⟩ := Prod.mk.inj (Option.some.inj h)
    exact ⟨⟨sign, (splitSign cs).2, hdigits.1, List.all_eq_true.mp hdigits.2⟩, hchars.symm, hsign,
      rfl⟩
  · cases h

theorem isBlank_of_mem_chars {t : WholeNumeral} {c : Char} (h : c ∈ t.chars) :
    isBlank c = false := by
  rcases List.mem_append.mp h with hsign | hdigit
  · exact Sign.isBlank_of_mem_chars hsign
  · exact isBlank_of_isDigit (t.decimal c hdigit)

end WholeNumeral

/-! ## Reading -/

section

variable {text : String} {t : WholeNumeral}

/-- A numeral is read by its digits: first they are counted, then the value is looked at. -/
theorem intOfText_of_padded (h : Padded t.chars text.toList) :
    intOfText text =
      if digitLimit < t.digits.length then .error (.tooManyDigits t.digits.length)
      else if int32Min ≤ t.value ∧ t.value ≤ int32Max then .ok t.value
      else .error (.intOutOfRange text) := by
  unfold intOfText
  rw [h.trimChars_eq fun c hc => WholeNumeral.isBlank_of_mem_chars hc, t.signedDigits?_chars]
  simp only [t.withSign_decimalValue]

theorem intOfText_of_not_padded (h : ∀ t : WholeNumeral, ¬Padded t.chars text.toList) :
    intOfText text = .error (.notInt text) := by
  unfold intOfText
  split
  · rfl
  · next minus digits hdigits =>
    obtain ⟨t, hchars, -, -⟩ := WholeNumeral.exists_of_signedDigits? hdigits
    exact absurd (hchars ▸ padded_trimChars text.toList) (h t)

/-- A text is read as a number just if it is a numeral of that value, with digits that are not too
many and a value of 32 bits. -/
theorem intOfText_eq_ok_iff {n : ℤ} :
    intOfText text = .ok n ↔
      ∃ t : WholeNumeral, Padded t.chars text.toList ∧ t.digits.length ≤ digitLimit ∧
        t.value = n ∧ int32Min ≤ n ∧ n ≤ int32Max := by
  constructor
  · intro hread
    by_cases hnumeral : ∃ t : WholeNumeral, Padded t.chars text.toList
    · obtain ⟨t, ht⟩ := hnumeral
      rw [intOfText_of_padded ht] at hread
      split at hread
      · cases hread
      · next hlimit =>
        split at hread
        · next hrange =>
          obtain rfl := Except.ok.inj hread
          exact ⟨t, ht, Nat.le_of_not_lt hlimit, rfl, hrange⟩
        · cases hread
    · rw [intOfText_of_not_padded (not_exists.mp hnumeral)] at hread
      cases hread
  · rintro ⟨t, ht, hlimit, rfl, hrange⟩
    rw [intOfText_of_padded ht, if_neg (Nat.not_lt.mpr hlimit), if_pos hrange]

/-- What is refused leaves a field at its default, whatever stands behind it. -/
theorem intField_of_refused {e first : Element} {tag : String} {fallback : ℤ}
    {before after : List Element} (hrefused : ∀ n, intOfText first.innerText ≠ .ok n)
    (children : e.children = before ++ first :: after) (named : first.name = tag)
    (earlier : ∀ child ∈ before, child.name ≠ tag) : e.intField tag fallback = fallback := by
  cases hread : intOfText first.innerText with
  | ok n => exact absurd hread (hrefused n)
  | error error =>
    exact Element.fieldIs_iff.mp (.malformed children named earlier hread)

end

/-- The usual digits of a whole number, with a sign that is right and zeros in front. -/
def WholeNumeral.usual (sign : Sign) (zeros n : ℕ) : WholeNumeral where
  sign := sign
  digits := List.replicate zeros '0' ++ Nat.toDigits 10 n
  nonempty := fun h => Nat.toDigits_ne_nil (List.append_eq_nil_iff.mp h).2
  decimal := by
    intro c hc
    rcases List.mem_append.mp hc with hzero | hdigit
    · rw [(List.mem_replicate.mp hzero).2]
      rfl
    · exact Nat.isDigit_of_mem_toDigits (by decide) (by decide) hdigit

theorem WholeNumeral.value_usual (sign : Sign) (zeros n : ℕ) :
    (WholeNumeral.usual sign zeros n).value = sign.signed n := by
  rw [value, usual, numberOf_replicate_append, ← decimalValue_eq_numberOf, decimalValue_toDigits]

/-- A text is read as a whole number just if it is a numeral with blanks around it, of 4300 digits
at most, whose value has 32 bits, and it is read as that value.  Every other text is refused for
what it lacks, and a field of such a text has its default.  So the usual digits of a number of 32
bits are read as that number, with any zeros in front for which there is room, and no number is
changed to fit. -/
theorem intOfText_of_numerals :
    (∀ text n, intOfText text = .ok n ↔
        ∃ t : WholeNumeral, Padded t.chars text.toList ∧ t.digits.length ≤ 4300 ∧ t.value = n ∧
          -2147483648 ≤ n ∧ n ≤ 2147483647) ∧
      ((∀ text, (∀ t : WholeNumeral, ¬Padded t.chars text.toList) →
          intOfText text = .error (.notInt text)) ∧
        ∀ (text : String) (t : WholeNumeral), Padded t.chars text.toList →
          (4300 < t.digits.length → intOfText text = .error (.tooManyDigits t.digits.length)) ∧
          (t.digits.length ≤ 4300 → ¬(-2147483648 ≤ t.value ∧ t.value ≤ 2147483647) →
            intOfText text = .error (.intOutOfRange text))) ∧
      (∀ (e first : Element) (tag : String) (fallback : ℤ) (before after : List Element),
        (∀ n, intOfText first.innerText ≠ .ok n) → e.children = before ++ first :: after →
        first.name = tag → (∀ child ∈ before, child.name ≠ tag) →
        e.intField tag fallback = fallback) ∧
      ∀ (n : ℤ) (sign : Sign) (zeros : ℕ) (text : String),
        -2147483648 ≤ n → n ≤ 2147483647 → sign.signed n.natAbs = n →
        zeros + (Nat.toDigits 10 n.natAbs).length ≤ 4300 →
        Padded (sign.chars ++ (List.replicate zeros '0' ++ Nat.toDigits 10 n.natAbs)) text.toList →
        intOfText text = .ok n := by
  refine ⟨fun text n => intOfText_eq_ok_iff, ⟨fun text => intOfText_of_not_padded, ?_⟩, ?_, ?_⟩
  · intro text t ht
    rw [intOfText_of_padded ht]
    refine ⟨fun hlimit => if_pos hlimit, fun hlimit hrange => ?_⟩
    exact (if_neg (Nat.not_lt.mpr hlimit)).trans (if_neg hrange)
  · intro e first tag fallback before after hrefused children named earlier
    exact intField_of_refused hrefused children named earlier
  · intro n sign zeros text hmin hmax hsign hlimit hpadded
    have hlength : (WholeNumeral.usual sign zeros n.natAbs).digits.length ≤ digitLimit := by
      rw [WholeNumeral.usual, List.length_append, List.length_replicate]
      exact hlimit
    exact intOfText_eq_ok_iff.mpr ⟨.usual sign zeros n.natAbs, hpadded, hlength,
      (WholeNumeral.value_usual sign zeros n.natAbs).trans hsign, hmin, hmax⟩

/-- The least number of 32 bits with a wide blank and zeros in front of it, and the number below,
for which a field keeps its default. -/
theorem intOfText_leastNumber :
    intOfText "\u2003-002147483648\n" = .ok (-2147483648) ∧
      intOfText "-2147483649" = .error (.intOutOfRange "-2147483649") ∧
      Element.intField ⟨"e", "", [], [⟨"n", "-2147483649", [], []⟩, ⟨"n", "1", [], []⟩]⟩ "n" 7 =
        7 := by
  obtain ⟨-, ⟨-, hrefused⟩, hfield, husual⟩ := intOfText_of_numerals
  have hbelow : intOfText "-2147483649" = .error (.intOutOfRange "-2147483649") :=
    (hrefused "-2147483649" (.usual .minus 0 2147483649)
      ⟨[], [], by decide, by simp, by simp⟩).2 (by decide) (by decide)
  refine ⟨?_, hbelow, ?_⟩
  · exact husual (-2147483648) .minus 2 _ (by decide) (by decide) (by decide) (by decide)
      ⟨['\u2003'], ['\n'], by decide, List.all_eq_true.mp rfl, List.all_eq_true.mp rfl⟩
  · refine hfield _ ⟨"n", "-2147483649", [], []⟩ "n" 7 [] [_] ?_ rfl rfl (by simp)
    intro n hn
    rw [hbelow] at hn
    cases hn

end CutsceneCatalog
