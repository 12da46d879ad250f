import CutsceneCatalog.Proofs.Rounding
import CutsceneCatalog.Proofs.Trimming
import Mathlib.Data.Bool.AllAny

/-!
# Colors as texts

The texts that are a color in HTML notation are those with blanks, `#` or nothing, 3, 4, 6 or 8
hexadecimal digits and blanks again (`Color.IsHtml`).  Such digits have a canonical form of eight
lower-case ones (`Color.canonicalDigits`).  The main statement, `Color.ofHtml_by_canonicalDigits`,
is that these texts and no others are read, that the color of a text is written as its canonical
form, and that two texts are the same color just if they have one canonical form.

The argument goes from a digit to a pair of them, which is a byte, and from there to the eight of a
color.  That a byte survives its way through a channel is `Channel.toByte_ofByte`.
-/

namespace CutsceneCatalog

open Text

namespace Color

/-! ## Digits -/

/-- The hexadecimal digits of either case. -/
def hexAlphabet : List Char := "0123456789abcdefABCDEF".toList

/-- The hexadecimal digits without the upper-case ones. -/
def lowerHexAlphabet : List Char := "0123456789abcdef".toList

theorem mem_hexAlphabet_of_hexValue? {c : Char} {v : Nat} (h : hexValue? c = some v) :
    c ∈ hexAlphabet := by
  have hascii : c.toNat < 128 := by
    have hupper (limit : Char) (hlimit : limit.toNat < 128) (hc : c ≤ limit) : c.toNat < 128 :=
      Nat.lt_of_le_of_lt (UInt32.le_iff_toNat_le.mp hc) hlimit
    unfold hexValue? at h
    split at h
    · next hc => exact hupper '9' (by decide) hc.2
    · split at h
      · next hc => exact hupper 'f' (by decide) hc.2
      · split at h
        · next hc => exact hupper 'F' (by decide) hc.2
        · contradiction
  have hall : ∀ n < 128, (hexValue? (Char.ofNat n)).isSome = true → Char.ofNat n ∈ hexAlphabet := by
    decide
  have hmem := hall c.toNat hascii
  rw [Char.ofNat_toNat] at hmem
  exact hmem (Option.isSome_of_eq_some h)

-- A quantifier over characters might be decided by a search through all there are.  So what holds
-- of each digit is checked by `List.all`, which goes through the digits only.

/-- A digit has a value below sixteen, and of that value its lower case is written. -/
theorem exists_hexValue? :
    ∀ c ∈ hexAlphabet, ∃ v : Fin 16, hexValue? c = some v.val ∧ hexDigit v.val = c.toLower :=
  List.all_iff_forall_prop.mp (by decide)

/-- A byte needs no more than its two digits. -/
theorem hexNumber_byte : ∀ b : Fin 256, hexNumber 2 b.val = hexDigits 2 b.val := by
  decide +kernel

theorem hexValue?_toLower : ∀ c ∈ hexAlphabet, hexValue? c.toLower = hexValue? c :=
  List.all_iff_forall_prop.mp (by decide)

theorem toLower_mem : ∀ c ∈ hexAlphabet, c.toLower ∈ lowerHexAlphabet :=
  List.all_iff_forall_prop.mp (by decide)

theorem toLower_of_mem_lower : ∀ c ∈ lowerHexAlphabet, c.toLower = c :=
  List.all_iff_forall_prop.mp (by decide)

theorem lowerHexAlphabet_subset : ∀ c ∈ lowerHexAlphabet, c ∈ hexAlphabet :=
  List.all_iff_forall_prop.mp (by decide)

theorem not_blank_and_ne_hash : ∀ c ∈ hexAlphabet, isBlank c = false ∧ c ≠ '#' :=
  List.all_iff_forall_prop.mp (by decide)

/-! ## Pairs of digits -/

section

variable {hi lo : Char}

theorem mem_of_byte?_eq_some {b : Fin 256} (h : byte? hi lo = some b) :
    hi ∈ hexAlphabet ∧ lo ∈ hexAlphabet := by
  obtain ⟨v, hhi, hrest⟩ := Option.bind_eq_some_iff.mp h
  obtain ⟨w, hlo, -⟩ := Option.bind_eq_some_iff.mp hrest
  exact ⟨mem_hexAlphabet_of_hexValue? hhi, mem_hexAlphabet_of_hexValue? hlo⟩

variable (hhi : hi ∈ hexAlphabet) (hlo : lo ∈ hexAlphabet)
include hhi hlo

/-- Two digits are a byte, and as that byte their lower case is written. -/
theorem exists_byte? :
    ∃ b : Fin 256, byte? hi lo = some b ∧ hexNumber 2 b.val = [hi.toLower, lo.toLower] := by
  obtain ⟨v, hv, hhigh⟩ := exists_hexValue? hi hhi
  obtain ⟨w, hw, hlow⟩ := exists_hexValue? lo hlo
  have hsmall : (Fin.ofNat 256 (16 * v.val + w.val)).val = 16 * v.val + w.val :=
    Nat.mod_eq_of_lt (by omega)
  refine ⟨Fin.ofNat 256 (16 * v.val + w.val), by rw [byte?, hv, hw]; rfl, ?_⟩
  have hdiv : (16 * v.val + w.val) / 16 % 16 = v.val := by omega
  have hmod : (16 * v.val + w.val) % 16 = w.val := by omega
  rw [hexNumber_byte, hsmall]
  show [hexDigit ((16 * v.val + w.val) / 16 % 16), hexDigit ((16 * v.val + w.val) % 16)] = _
  rw [hdiv, hmod, hhigh, hlow]

theorem byte?_toLower : byte? hi.toLower lo.toLower = byte? hi lo := by
  rw [byte?, byte?, hexValue?_toLower hi hhi, hexValue?_toLower lo hlo]

end

/-! ## Eight digits -/

theorem mem_of_ofDigits?_eq_some {digits : List Char} {color : Color}
    (h : ofDigits? digits = some color) : ∀ c ∈ digits, c ∈ hexAlphabet := by
  unfold ofDigits? at h
  split at h
  · obtain ⟨r, hr, h⟩ := Option.bind_eq_some_iff.mp h
    obtain ⟨g, hg, h⟩ := Option.bind_eq_some_iff.mp h
    obtain ⟨b, hb, h⟩ := Option.bind_eq_some_iff.mp h
    obtain ⟨a, ha, -⟩ := Option.bind_eq_some_iff.mp h
    have hr := mem_of_byte?_eq_some hr
    have hg := mem_of_byte?_eq_some hg
    have hb := mem_of_byte?_eq_some hb
    have ha := mem_of_byte?_eq_some ha
    simp [hr, hg, hb, ha]
  · contradiction

section

variable {digits : List Char} (hlength : digits.length = 8)
  (hdigits : ∀ c ∈ digits, c ∈ hexAlphabet)
include hlength hdigits

/-- Eight digits are a color, and as that color their lower case is written. -/
theorem exists_ofDigits? :
    ∃ color, ofDigits? digits = some color ∧
      color.toHtml = String.ofList (digits.map Char.toLower) := by
  let [r₁, r₂, g₁, g₂, b₁, b₂, a₁, a₂] := digits
  simp only [List.forall_mem_cons] at hdigits
  obtain ⟨hr₁, hr₂, hg₁, hg₂, hb₁, hb₂, ha₁, ha₂, -⟩ := hdigits
  obtain ⟨r, hr, hred⟩ := exists_byte? hr₁ hr₂
  obtain ⟨g, hg, hgreen⟩ := exists_byte? hg₁ hg₂
  obtain ⟨b, hb, hblue⟩ := exists_byte? hb₁ hb₂
  obtain ⟨a, ha, halpha⟩ := exists_byte? ha₁ ha₂
  refine ⟨⟨.ofByte r, .ofByte g, .ofByte b, .ofByte a⟩, by rw [ofDigits?, hr, hg, hb, ha]; rfl, ?_⟩
  simp only [toHtml, List.flatMap_cons, List.flatMap_nil, Channel.toByte_ofByte, hred, hgreen,
    hblue, halpha]
  rfl

theorem ofDigits?_map_toLower : ofDigits? (digits.map Char.toLower) = ofDigits? digits := by
  let [r₁, r₂, g₁, g₂, b₁, b₂, a₁, a₂] := digits
  simp only [List.forall_mem_cons] at hdigits
  obtain ⟨hr₁, hr₂, hg₁, hg₂, hb₁, hb₂, ha₁, ha₂, -⟩ := hdigits
  simp only [List.map_cons, List.map_nil, ofDigits?, byte?_toLower hr₁ hr₂, byte?_toLower hg₁ hg₂,
    byte?_toLower hb₁ hb₂, byte?_toLower ha₁ ha₂]

end

/-! ## Texts with fewer digits -/

/-- The numbers of digits that a color may have: with one or two for a channel, and with or without
an alpha channel. -/
def htmlLengths : List Nat := [3, 4, 6, 8]

/-- Digits with each of them doubled when there are 3 or 4, and with `ff` for an alpha channel when
there is none. -/
def eightDigits (digits : List Char) : List Char :=
  (if digits.length = 3 ∨ digits.length = 4 then digits.flatMap fun c => [c, c] else digits) ++
    if digits.length = 3 ∨ digits.length = 6 then ['f', 'f'] else []

/-- The canonical form of the digits of a color. -/
def canonicalDigits (digits : List Char) : List Char :=
  (eightDigits digits).map Char.toLower

theorem fullDigits?_eq_some_iff {digits full : List Char} :
    fullDigits? digits = some full ↔
      digits.length ∈ htmlLengths ∧ eightDigits digits = full := by
  constructor
  · intro h
    unfold fullDigits? at h
    split at h
    all_goals first
      | contradiction
      | exact ⟨by simp [htmlLengths], Option.some.inj h⟩
  · rintro ⟨hlength, rfl⟩
    simp only [htmlLengths, List.mem_cons, List.not_mem_nil, or_false] at hlength
    rcases hlength with hthree | hfour | hsix | hfull
    · let [r, g, b] := digits
      rfl
    · let [r, g, b, a] := digits
      rfl
    · let [r₁, r₂, g₁, g₂, b₁, b₂] := digits
      rfl
    · let [r₁, r₂, g₁, g₂, b₁, b₂, a₁, a₂] := digits
      rfl

section

variable {digits : List Char} (hlength : digits.length ∈ htmlLengths)
include hlength

theorem length_eightDigits : (eightDigits digits).length = 8 := by
  have hdoubled : (digits.flatMap fun c => [c, c]).length = digits.length * 2 := by
    simp [List.length_flatMap, List.map_const']
  simp only [htmlLengths, List.mem_cons, List.not_mem_nil, or_false] at hlength
  rcases hlength with h | h | h | h <;> simp [eightDigits, h, hdoubled]

theorem length_canonicalDigits : (canonicalDigits digits).length = 8 := by
  rw [canonicalDigits, List.length_map, length_eightDigits hlength]

end

theorem forall_mem_eightDigits_iff {digits : List Char} :
    (∀ c ∈ eightDigits digits, c ∈ hexAlphabet) ↔ ∀ c ∈ digits, c ∈ hexAlphabet := by
  have hf : 'f' ∈ hexAlphabet := by decide
  have hdoubled : (∀ c ∈ digits.flatMap fun c => [c, c], c ∈ hexAlphabet) ↔
      ∀ c ∈ digits, c ∈ hexAlphabet := by simp
  unfold eightDigits
  rw [List.forall_mem_append]
  constructor
  · rintro ⟨hfront, -⟩
    split at hfront
    · exact hdoubled.mp hfront
    · exact hfront
  · intro h
    constructor
    · split
      · exact hdoubled.mpr h
      · exact h
    · split
      · simp [hf]
      · simp

theorem mem_lower_of_mem_canonicalDigits {digits : List Char}
    (h : ∀ c ∈ digits, c ∈ hexAlphabet) : ∀ c ∈ canonicalDigits digits, c ∈ lowerHexAlphabet := by
  intro c hc
  obtain ⟨d, hd, rfl⟩ := List.mem_map.mp hc
  exact toLower_mem d (forall_mem_eightDigits_iff.mpr h d hd)

/-- Eight lower-case digits are their own canonical form. -/
theorem canonicalDigits_of_lower {digits : List Char} (hlength : digits.length = 8)
    (h : ∀ c ∈ digits, c ∈ lowerHexAlphabet) : canonicalDigits digits = digits := by
  have hfull : eightDigits digits = digits := by simp [eightDigits, hlength]
  rw [canonicalDigits, hfull]
  calc digits.map Char.toLower = digits.map id :=
        List.map_congr_left fun c hc => toLower_of_mem_lower c (h c hc)
    _ = digits := List.map_id digits

/-! ## Texts with blanks and a mark -/

/-- The text is a color in HTML notation with the given digits. -/
structure IsHtml (text digits : List Char) : Prop where
  written : ∃ before mark after, text = before ++ (mark ++ digits) ++ after ∧
    (∀ c ∈ before, isBlank c = true) ∧ (∀ c ∈ after, isBlank c = true) ∧
    (mark = [] ∨ mark = ['#'])
  count : digits.length ∈ htmlLengths
  hexadecimal : ∀ c ∈ digits, c ∈ hexAlphabet

theorem exists_mark (cs : List Char) :
    ∃ mark, cs = mark ++ dropHash cs ∧ (mark = [] ∨ mark = ['#']) := by
  unfold dropHash
  split
  · exact ⟨['#'], rfl, .inr rfl⟩
  · exact ⟨[], rfl, .inl rfl⟩

theorem dropHash_mark_append {mark digits : List Char} (hmark : mark = [] ∨ mark = ['#'])
    (hdigits : ∀ c ∈ digits, c ∈ hexAlphabet) : dropHash (mark ++ digits) = digits := by
  rcases hmark with rfl | rfl
  · rw [List.nil_append]
    unfold dropHash
    split
    · next rest =>
      have hhash : '#' ∈ hexAlphabet := hdigits '#' List.mem_cons_self
      exact absurd rfl (not_blank_and_ne_hash '#' hhash).2
    · rfl
  · rfl

/-- A color's digits are what is left without the blanks and the mark. -/
theorem isHtml_iff {text digits : List Char} :
    IsHtml text digits ↔
      dropHash (trimChars text) = digits ∧ digits.length ∈ htmlLengths ∧
        ∀ c ∈ digits, c ∈ hexAlphabet := by
  constructor
  · rintro ⟨⟨before, mark, after, rfl, hbefore, hafter, hmark⟩, hcount, hhex⟩
    have hcore : ∀ c ∈ mark ++ digits, isBlank c = false := by
      intro c hc
      rcases List.mem_append.mp hc with hc | hc
      · rcases hmark with rfl | rfl
        · contradiction
        · rw [List.mem_singleton.mp hc]
          rfl
      · exact (not_blank_and_ne_hash c (hhex c hc)).1
    have htrim : trimChars (before ++ (mark ++ digits) ++ after) = mark ++ digits :=
      Padded.trimChars_eq ⟨before, after, rfl, hbefore, hafter⟩ hcore
    exact ⟨by rw [htrim, dropHash_mark_append hmark hhex], hcount, hhex⟩
  · rintro ⟨rfl, hcount, hhex⟩
    obtain ⟨before, after, htext, hbefore, hafter⟩ := padded_trimChars text
    obtain ⟨mark, hcore, hmark⟩ := exists_mark (trimChars text)
    exact ⟨⟨before, mark, after, by rw [← hcore, ← htext], hbefore, hafter, hmark⟩, hcount, hhex⟩

theorem IsHtml.unique {text digits digits' : List Char} (h : IsHtml text digits)
    (h' : IsHtml text digits') : digits = digits' :=
  (isHtml_iff.mp h).1.symm.trans (isHtml_iff.mp h').1

/-- The canonical form is a color in HTML notation, with itself for digits. -/
theorem isHtml_of_lower {digits : List Char} (hlength : digits.length = 8)
    (h : ∀ c ∈ digits, c ∈ lowerHexAlphabet) : IsHtml digits digits where
  written := ⟨[], [], [], by simp, by simp, by simp, .inl rfl⟩
  count := by simp [hlength, htmlLengths]
  hexadecimal := fun c hc => lowerHexAlphabet_subset c (h c hc)

/-! ## Reading -/

/-- A text is read just if it is a color in HTML notation, and then by its eight digits. -/
theorem ofHtml_eq_ok_iff {text : String} {color : Color} :
    ofHtml text = .ok color ↔
      ∃ digits, IsHtml text.toList digits ∧ ofDigits? (eightDigits digits) = some color := by
  have hok : ofHtml text = .ok color ↔
      (fullDigits? (dropHash (trimChars text.toList))).bind ofDigits? = some color := by
    unfold ofHtml
    split
    · next found hfound => simp [hfound]
    · next hnone => simp [hnone]
  rw [hok, Option.bind_eq_some_iff]
  constructor
  · rintro ⟨full, hfull, hcolor⟩
    obtain ⟨hlength, rfl⟩ := fullDigits?_eq_some_iff.mp hfull
    have hhex := forall_mem_eightDigits_iff.mp (mem_of_ofDigits?_eq_some hcolor)
    exact ⟨_, isHtml_iff.mpr ⟨rfl, hlength, hhex⟩, hcolor⟩
  · rintro ⟨digits, hhtml, hcolor⟩
    obtain ⟨rfl, hlength, -⟩ := isHtml_iff.mp hhtml
    exact ⟨_, fullDigits?_eq_some_iff.mpr ⟨hlength, rfl⟩, hcolor⟩

/-- A text that is not read as a color is refused for that. -/
theorem ofHtml_eq_error {text : String} (h : ∀ color, ofHtml text ≠ .ok color) :
    ofHtml text = .error (.notColor text) := by
  unfold ofHtml at h ⊢
  split
  · next color hcolor => exact absurd (by rw [hcolor]) (h color)
  · rfl

section

variable {text other : String} {digits digits' : List Char} (h : IsHtml text.toList digits)
include h

theorem IsHtml.exists_color :
    ∃ color, ofHtml text = .ok color ∧ color.toHtml = String.ofList (canonicalDigits digits) := by
  obtain ⟨color, hcolor, hwritten⟩ := exists_ofDigits? (length_eightDigits h.count)
    (forall_mem_eightDigits_iff.mpr h.hexadecimal)
  exact ⟨color, ofHtml_eq_ok_iff.mpr ⟨digits, h, hcolor⟩, hwritten⟩

/-- What is read from a text depends on its canonical digits alone. -/
theorem IsHtml.ofHtml_eq_ok_iff {color : Color} :
    ofHtml text = .ok color ↔ ofDigits? (canonicalDigits digits) = some color := by
  have hlower : ofDigits? (canonicalDigits digits) = ofDigits? (eightDigits digits) :=
    ofDigits?_map_toLower (length_eightDigits h.count)
      (forall_mem_eightDigits_iff.mpr h.hexadecimal)
  rw [Color.ofHtml_eq_ok_iff, hlower]
  constructor
  · rintro ⟨others, hothers, hcolor⟩
    rwa [h.unique hothers]
  · exact fun hcolor => ⟨digits, h, hcolor⟩

/-- Two texts are read as one color just if they have one canonical form. -/
theorem IsHtml.same_color_iff (h' : IsHtml other.toList digits') :
    ofHtml other = ofHtml text ↔ canonicalDigits digits' = canonicalDigits digits := by
  obtain ⟨color, hread, hwritten⟩ := h.exists_color
  obtain ⟨color', hread', hwritten'⟩ := h'.exists_color
  rw [hread]
  constructor
  · intro hsame
    obtain rfl : color' = color := Except.ok.inj (hread'.symm.trans hsame)
    exact String.ofList_injective (hwritten'.symm.trans hwritten)
  · intro hcanonical
    rw [h'.ofHtml_eq_ok_iff, hcanonical]
    exact h.ofHtml_eq_ok_iff.mp hread

end

/-- A text is read just if it is a color in HTML notation; any other is refused.  The color of a
text is written as the canonical form of its digits, which are eight lower-case ones, and from this
it is read back.  Two texts are the same color just if they have one canonical form. -/
theorem ofHtml_by_canonicalDigits (text : String) :
    ((∃ color, ofHtml text = .ok color) ↔ ∃ digits, IsHtml text.toList digits) ∧
      ((∀ digits, ¬IsHtml text.toList digits) → ofHtml text = .error (.notColor text)) ∧
      ∀ digits, IsHtml text.toList digits →
        ((canonicalDigits digits).length = 8 ∧
          ∀ c ∈ canonicalDigits digits, c ∈ lowerHexAlphabet) ∧
        (∃ color, ofHtml text = .ok color ∧
          color.toHtml = String.ofList (canonicalDigits digits) ∧
          ofHtml color.toHtml = .ok color) ∧
        ∀ other digits', IsHtml other.toList digits' →
          (ofHtml other = ofHtml text ↔ canonicalDigits digits' = canonicalDigits digits) := by
  refine ⟨⟨?_, ?_⟩, ?_, ?_⟩
  · rintro ⟨color, hread⟩
    obtain ⟨digits, hdigits, -⟩ := ofHtml_eq_ok_iff.mp hread
    exact ⟨digits, hdigits⟩
  · rintro ⟨digits, hdigits⟩
    obtain ⟨color, hread, -⟩ := hdigits.exists_color
    exact ⟨color, hread⟩
  · intro hnone
    apply ofHtml_eq_error
    intro color hread
    obtain ⟨digits, hdigits, -⟩ := ofHtml_eq_ok_iff.mp hread
    exact hnone digits hdigits
  · intro digits hdigits
    have hlength := length_canonicalDigits hdigits.count
    have hlower := mem_lower_of_mem_canonicalDigits hdigits.hexadecimal
    obtain ⟨color, hread, hwritten⟩ := hdigits.exists_color
    refine ⟨⟨hlength, hlower⟩, ⟨color, hread, hwritten, ?_⟩, fun other digits' h => ?_⟩
    · -- The color's own text has the same canonical form, for that is what it consists of.
      have hself : IsHtml color.toHtml.toList (canonicalDigits digits) := by
        rw [hwritten, String.toList_ofList]
        exact isHtml_of_lower hlength hlower
      rw [← hread, hdigits.same_color_iff hself]
      exact canonicalDigits_of_lower hlength hlower
    · exact hdigits.same_color_iff h

/-- A text with blanks, the mark and three digits of either case. -/
theorem ofHtml_shortOrange :
    IsHtml " #Fa0\n".toList "Fa0".toList ∧
      ∃ color, ofHtml " #Fa0\n" = .ok color ∧ color.toHtml = "ffaa00ff" ∧
        ofHtml "ffaa00ff" = .ok color := by
  have hhtml : IsHtml " #Fa0\n".toList "Fa0".toList :=
    ⟨⟨[' '], ['#'], ['\n'], rfl, List.all_eq_true.mp rfl, List.all_eq_true.mp rfl, .inr rfl⟩,
      by decide, List.all_iff_forall_prop.mp (by decide)⟩
  obtain ⟨-, ⟨color, hread, hwritten, hagain⟩, -⟩ :=
    (ofHtml_by_canonicalDigits " #Fa0\n").2.2 "Fa0".toList hhtml
  have hform : String.ofList (canonicalDigits "Fa0".toList) = "ffaa00ff" := by decide
  rw [hform] at hwritten
  rw [hwritten] at hagain
  exact ⟨hhtml, color, hread, hwritten, hagain⟩

end Color
end CutsceneCatalog
