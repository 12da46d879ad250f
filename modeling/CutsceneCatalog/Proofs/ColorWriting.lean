import CutsceneCatalog.Proofs.ColorText
import CutsceneCatalog.Proofs.NearestDouble

/-!
# Colors that are written

A color may have any doubles from 0 to 1 for its channels, while its text has a byte for each of
them.  The byte is found by two roundings, of the product with 255 to a double and of that to a
whole number (`Channel.HasByte`).  Both keep the order of numbers, so the byte grows with the
channel, and it is 255 at most because that is the byte of the channel 1.

`Color.toHtml_of_ofChannels` says what follows for the text: it is eight lower-case digits, a pair
for each channel, and from there on reading and writing change nothing any more.
-/

namespace CutsceneCatalog

open Text

theorem Binary64.toRat_of_not_negative {x : Binary64} (h : x.negative = false) :
    x.toRat = x.units / unitsPerOne := by
  rw [toRat, signedUnits, h, if_neg Bool.false_ne_true, Int.cast_natCast]

theorem Binary64.roundToNat_nearest_zero (negative : Bool) (den : ℕ) :
    (nearest negative 0 den).roundToNat = 0 := by
  have hclosest : closest 0 den = 0 := by simp [closest, roundHalfEven]
  have hunits : (nearest negative 0 den).units = 0 := by
    rw [units, nearest]
    dsimp only
    rw [Nat.zero_mul, hclosest, Nat.zero_min, unitsOf_zero]
  rw [roundToNat, hunits]
  simp [roundHalfEven]

namespace Channel

/-! ## The byte of a channel -/

/-- The whole number that a channel is written as: the nearest to the double that is nearest to the
channel times 255. -/
def HasByte (c : Channel) (byte : ℕ) : Prop :=
  ∃ product : Binary64, product.negative = false ∧ product.IsRounded (255 * c.value.toRat) ∧
    IsNearest (fun n => (n : ℚ)) product.toRat byte

/-- A channel may be negative only as zero. -/
theorem units_of_negative {c : Channel} (h : c.value.negative = true) : c.value.units = 0 := by
  have hrank : (0 : ℤ) ≤ c.value.rank := by
    have hnonneg := c.nonneg
    unfold Binary64.le at hnonneg
    simp only [Bool.and_eq_true, decide_eq_true_eq] at hnonneg
    exact hnonneg.2
  have hmagnitude : c.value.magnitude = 0 := by
    rw [Binary64.rank, if_pos h] at hrank
    omega
  rw [Binary64.units, hmagnitude, Binary64.unitsOf_zero]

theorem toRat_value (c : Channel) : c.value.toRat = c.value.units / Binary64.unitsPerOne := by
  by_cases hnegative : c.value.negative = true
  · rw [Binary64.toRat, Binary64.signedUnits, units_of_negative hnegative, if_pos hnegative,
      Nat.cast_zero, neg_zero, Int.cast_zero, Nat.cast_zero]
  · exact Binary64.toRat_of_not_negative (Bool.eq_false_of_not_eq_true hnegative)

/-- Channels are ordered as the numbers they are. -/
theorem le_iff {c d : Channel} : c.value.le d.value = true ↔ c.value.toRat ≤ d.value.toRat :=
  Binary64.le_eq_true_iff (Binary64.isFinite_of_le_one c.nonneg c.le_one)
    (Binary64.isFinite_of_le_one d.nonneg d.le_one)

/-- The nearest whole number of the product is not negative, since a negative channel is zero. -/
theorem toByte_eq (c : Channel) : c.toByte = (c.value.scale 255).roundToNat := by
  have hnegative : (c.value.scale 255).negative = c.value.negative := Binary64.negative_nearest ..
  rw [toByte, Binary64.roundToInt, hnegative]
  split
  · next h =>
    have hzero : (c.value.scale 255).roundToNat = 0 := by
      rw [Binary64.scale, units_of_negative h, Nat.zero_mul]
      exact Binary64.roundToNat_nearest_zero _ _
    rw [hzero]
    rfl
  · rfl

theorem exists_hasByte (c : Channel) : ∃ byte : ℕ, c.toByte = byte ∧ c.HasByte byte := by
  have hpos := Binary64.unitsPerOne_pos
  refine ⟨_, c.toByte_eq, .nearest false (c.value.units * 255) Binary64.unitsPerOne, rfl, ?_, ?_⟩
  · have hproduct : 255 * c.value.toRat =
        (c.value.units * 255 : ℕ) / (Binary64.unitsPerOne : ℚ) := by
      rw [c.toRat_value, Nat.cast_mul, Nat.cast_ofNat, mul_comm, div_mul_eq_mul_div]
    rw [hproduct]
    exact Binary64.isRounded_nearest false _ hpos
  · rw [Binary64.toRat_of_not_negative rfl]
    exact isNearest_roundHalfEven _ hpos

/-- A greater channel has no smaller byte. -/
theorem HasByte.le_of_le {c d : Channel} {m n : ℕ} (hc : c.HasByte m) (hd : d.HasByte n)
    (h : c.value.toRat ≤ d.value.toRat) : m ≤ n := by
  obtain ⟨product, hsign, hrounded, hnear⟩ := hc
  obtain ⟨product', hsign', hrounded', hnear'⟩ := hd
  have hmagnitude : product.magnitude ≤ product'.magnitude :=
    hrounded.magnitude_le hrounded' (mul_le_mul_of_nonneg_left h (by norm_num))
  have hproduct : product.toRat ≤ product'.toRat := by
    rw [Binary64.toRat_le_toRat_iff, Binary64.rank, Binary64.rank, hsign, hsign']
    exact Int.ofNat_le.mpr hmagnitude
  exact hnear.le_of_le Nat.strictMono_cast hnear' hproduct

/-- The number that is written is a byte. -/
theorem toByte_le (c : Channel) : 0 ≤ c.toByte ∧ c.toByte ≤ 255 := by
  have hone : one.toByte = 255 := by decide +kernel
  have hupper : c.value.le one.value = true := c.le_one
  obtain ⟨byte, hbyte, hown⟩ := c.exists_hasByte
  obtain ⟨top, htop, hgreatest⟩ := one.exists_hasByte
  have hle : byte ≤ top := hown.le_of_le hgreatest (le_iff.mp hupper)
  omega

/-! ## Its two digits -/

/-- The two lower-case digits of the byte that a channel is written as. -/
structure WrittenAs (c : Channel) (hi lo : Char) : Prop where
  lower_hi : hi ∈ Color.lowerHexAlphabet
  lower_lo : lo ∈ Color.lowerHexAlphabet
  byte : ∃ b : Fin 256, Color.byte? hi lo = some b ∧ c.HasByte b

theorem hexDigit_of_lt : ∀ v : Fin 16,
    hexDigit v.val ∈ Color.lowerHexAlphabet ∧ hexValue? (hexDigit v.val) = some v.val := by
  decide

theorem exists_writtenAs (c : Channel) :
    ∃ hi lo, hexNumber 2 c.toByte = [hi, lo] ∧ c.WrittenAs hi lo := by
  obtain ⟨byte, heq, hown⟩ := c.exists_hasByte
  have hbyte : byte < 256 := by
    have hle := c.toByte_le
    omega
  rw [heq, Color.hexNumber_byte ⟨byte, hbyte⟩]
  obtain ⟨hhi, hhigh⟩ := hexDigit_of_lt ⟨byte / 16 % 16, Nat.mod_lt _ (by decide)⟩
  obtain ⟨hlo, hlow⟩ := hexDigit_of_lt ⟨byte % 16, Nat.mod_lt _ (by decide)⟩
  refine ⟨_, _, rfl, hhi, hlo, ⟨byte, hbyte⟩, ?_, hown⟩
  have hsum : 16 * (byte / 16 % 16) + byte % 16 = byte := by omega
  rw [Color.byte?, hhigh, hlow]
  simp only [Option.bind_eq_bind, Option.bind_some, Option.pure_def, hsum]
  exact congrArg some (Fin.ext (Nat.mod_eq_of_lt hbyte))

theorem WrittenAs.le_of_le {c d : Channel} {hi lo hi' lo' : Char} {m n : Fin 256}
    (hc : c.WrittenAs hi lo) (hd : d.WrittenAs hi' lo') (h : c.value.le d.value = true)
    (hm : Color.byte? hi lo = some m) (hn : Color.byte? hi' lo' = some n) : m ≤ n := by
  obtain ⟨b, hb, hbyte⟩ := hc.byte
  obtain ⟨b', hb', hbyte'⟩ := hd.byte
  obtain rfl : b = m := Option.some.inj (hb.symm.trans hm)
  obtain rfl : b' = n := Option.some.inj (hb'.symm.trans hn)
  exact hbyte.le_of_le hbyte' (le_iff.mp h)

/-! ## Doubles that are channels -/

theorem ofBinary64_eq_ok_iff {x : Binary64} {c : Channel} : ofBinary64 x = .ok c ↔ c.value = x := by
  constructor
  · intro h
    unfold ofBinary64 at h
    split at h
    · split at h
      · exact congrArg value (Except.ok.inj h).symm
      · cases h
    · cases h
  · rintro rfl
    unfold ofBinary64
    rw [dif_pos c.le_one, dif_pos c.nonneg]

end Channel

namespace Color

theorem ofChannels_eq_ok_iff {r g b a : Binary64} {color : Color} :
    ofChannels r g b a = .ok color ↔
      color.r.value = r ∧ color.g.value = g ∧ color.b.value = b ∧ color.a.value = a := by
  simp only [← Channel.ofBinary64_eq_ok_iff]
  unfold ofChannels
  constructor
  · intro h
    split at h
    · next hr hg hb ha =>
      obtain rfl := Except.ok.inj h
      exact ⟨hr, hg, hb, ha⟩
    · cases h
  · rintro ⟨hr, hg, hb, ha⟩
    rw [hr, hg, hb, ha]

theorem exists_ofChannels_eq_ok_iff {r g b a : Binary64} :
    (∃ color, ofChannels r g b a = .ok color) ↔
      ∀ x ∈ [r, g, b, a], (Binary64.zero false).le x = true ∧ x.le .one = true := by
  simp only [ofChannels_eq_ok_iff, List.forall_mem_cons]
  constructor
  · rintro ⟨color, rfl, rfl, rfl, rfl⟩
    exact ⟨⟨color.r.nonneg, color.r.le_one⟩, ⟨color.g.nonneg, color.g.le_one⟩,
      ⟨color.b.nonneg, color.b.le_one⟩, ⟨color.a.nonneg, color.a.le_one⟩, by simp⟩
  · rintro ⟨⟨hr, hr'⟩, ⟨hg, hg'⟩, ⟨hb, hb'⟩, ⟨ha, ha'⟩, -⟩
    exact ⟨⟨⟨r, hr, hr'⟩, ⟨g, hg, hg'⟩, ⟨b, hb, hb'⟩, ⟨a, ha, ha'⟩⟩, rfl, rfl, rfl, rfl⟩

/-! ## Texts of colors -/

/-- Eight lower-case digits are read as a color and written again as they are. -/
theorem exists_ofHtml_of_lower {digits : List Char} (hlength : digits.length = 8)
    (h : ∀ c ∈ digits, c ∈ lowerHexAlphabet) :
    ∃ color, ofHtml (String.ofList digits) = .ok color ∧ color.toHtml = String.ofList digits := by
  have hhtml : IsHtml (String.ofList digits).toList digits := by
    rw [String.toList_ofList]
    exact isHtml_of_lower hlength h
  obtain ⟨color, hread, hwritten⟩ := hhtml.exists_color
  rw [canonicalDigits_of_lower hlength h] at hwritten
  exact ⟨color, hread, hwritten⟩

/-- Four doubles are a color just if each is from 0 to 1.  The text of the color is a pair of
lower-case digits for each of them; it is read as a color of the same text.  A greater channel is
never written as a smaller byte. -/
theorem toHtml_of_ofChannels (r g b a : Binary64) :
    ((∃ color, ofChannels r g b a = .ok color) ↔
        ∀ x ∈ [r, g, b, a], (Binary64.zero false).le x = true ∧ x.le .one = true) ∧
      (∀ color, ofChannels r g b a = .ok color →
        (color.r.value = r ∧ color.g.value = g ∧ color.b.value = b ∧ color.a.value = a) ∧
        (∃ r₁ r₂ g₁ g₂ b₁ b₂ a₁ a₂,
          color.toHtml = String.ofList [r₁, r₂, g₁, g₂, b₁, b₂, a₁, a₂] ∧
          color.r.WrittenAs r₁ r₂ ∧ color.g.WrittenAs g₁ g₂ ∧ color.b.WrittenAs b₁ b₂ ∧
          color.a.WrittenAs a₁ a₂) ∧
        ∃ again, ofHtml color.toHtml = .ok again ∧ again.toHtml = color.toHtml) ∧
      ∀ (c d : Channel) (hi lo hi' lo' : Char) (m n : Fin 256), c.value.le d.value = true →
        c.WrittenAs hi lo → d.WrittenAs hi' lo' → byte? hi lo = some m → byte? hi' lo' = some n →
        m ≤ n := by
  refine ⟨exists_ofChannels_eq_ok_iff, ?_, fun c d hi lo hi' lo' m n hle hc hd hm hn =>
    hc.le_of_le hd hle hm hn⟩
  intro color hcolor
  obtain ⟨r₁, r₂, hred, hr⟩ := color.r.exists_writtenAs
  obtain ⟨g₁, g₂, hgreen, hg⟩ := color.g.exists_writtenAs
  obtain ⟨b₁, b₂, hblue, hb⟩ := color.b.exists_writtenAs
  obtain ⟨a₁, a₂, halpha, ha⟩ := color.a.exists_writtenAs
  have hwritten : color.toHtml = String.ofList [r₁, r₂, g₁, g₂, b₁, b₂, a₁, a₂] := by
    simp only [toHtml, List.flatMap_cons, List.flatMap_nil, hred, hgreen, hblue, halpha]
    rfl
  refine ⟨ofChannels_eq_ok_iff.mp hcolor,
    ⟨r₁, r₂, g₁, g₂, b₁, b₂, a₁, a₂, hwritten, hr, hg, hb, ha⟩, ?_⟩
  rw [hwritten]
  apply exists_ofHtml_of_lower rfl
  simp only [List.forall_mem_cons]
  exact ⟨hr.lower_hi, hr.lower_lo, hg.lower_hi, hg.lower_lo, hb.lower_hi, hb.lower_lo, ha.lower_hi,
    ha.lower_lo, by simp⟩

/-- A negative zero, the least positive double, one half, which is a tie, and one. -/
theorem toHtml_unevenColor :
    ∃ color, ofChannels (.zero true) ⟨false, 1, by decide⟩ .half .one = .ok color ∧
      color.toHtml = "000080ff" ∧
      ∃ again, ofHtml "000080ff" = .ok again ∧ again.toHtml = "000080ff" := by
  have h := toHtml_of_ofChannels (.zero true) ⟨false, 1, by decide⟩ .half .one
  obtain ⟨color, hcolor⟩ := h.1.mpr (List.all_iff_forall_prop.mp (by decide))
  obtain ⟨⟨hr, hg, hb, ha⟩, -, hagain⟩ := h.2.1 color hcolor
  have hwritten : color.toHtml = "000080ff" := by
    obtain ⟨r, g, b, a⟩ := color
    unfold toHtml Channel.toByte
    dsimp only at hr hg hb ha
    simp only [List.flatMap_cons, List.flatMap_nil, hr, hg, hb, ha]
    decide +kernel
  rw [hwritten] at hagain
  exact ⟨color, hcolor, hwritten, hagain⟩

end Color
end CutsceneCatalog
