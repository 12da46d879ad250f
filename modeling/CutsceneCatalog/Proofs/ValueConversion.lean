import CutsceneCatalog.Libraries.Standard
import CutsceneCatalog.Proofs.DecimalText
import CutsceneCatalog.Proofs.DoubleOrder
import CutsceneCatalog.Proofs.SettingValues
import Mathlib.Data.List.TakeDrop

/-!
# Conversions that can be relied on

`Libraries.Documented` says what conversions are known to do with plain values, and nothing about
any other: a text is a location and a text as it stands, some values are whole numbers
(`Value.IsWhole`) and some are none in any reading (`Value.IsNoNumber`), and what is no text is
refused as one.  Under these conversions the plain values that a field takes or refuses can be named
(`SettingField.Takes`, `SettingField.Refuses`), and settings show what they were given
(`Settings.Shows`).  The libraries at hand are such (`Libraries.documented_standard`).
-/

namespace CutsceneCatalog

open Text

/-! ## Plain values -/

/-- The whole number that a value is without doubt: itself, the number of a truth value, the value
of a double without a fraction, or the number whose decimal digits a text is; the last two fit 64
signed bits. -/
inductive Value.IsWhole : Value → Int → Prop
  | int (n : Int) : IsWhole (.int n) n
  | bool (b : Bool) : IsWhole (.bool b) (if b then 1 else 0)
  | float {x : Binary64} {n : Int} (finite : x.isFinite = true) (value : x.toRat = n)
      (small : n.natAbs < Nat.pow 2 63) : IsWhole (.float x) n
  | text {n : Int} (small : n.natAbs < Nat.pow 2 63) : IsWhole (.text (toString n)) n

/-- A value that is no whole number: one of another kind, a double that has a fraction or is not
finite, and a text without a digit. -/
inductive Value.IsNoNumber : Value → Prop
  | null : IsNoNumber .null
  | list (items : List Value) : IsNoNumber (.list items)
  | map (entries : List (Value × Value)) : IsNoNumber (.map entries)
  | other (kind : String) (void : Bool) : IsNoNumber (.other kind void)
  | float {x : Binary64} (fraction : ∀ n : Int, ¬(x.isFinite = true ∧ x.toRat = n)) :
      IsNoNumber (.float x)
  | text {s : String} (wordy : ∀ c ∈ s.toList, c.isDigit = false) : IsNoNumber (.text s)

/-- A value that can be a text; bytes can. -/
def Value.mayBeText : Value → Bool
  | .text _ | .bytes _ => true
  | _ => false

/-- What libraries are documented to do with an empty settings file and with plain values. -/
structure Libraries.Documented (libraries : Libraries) : Prop where
  valueOf_nil : libraries.valueOf [] = .ok .null
  toPath_text (s : String) : libraries.toPath (.text s) = .ok (.ofString s)
  toPath_refuses {v : Value} : v.mayBeText = false → ∃ kind, libraries.toPath v = .error kind
  toText_text (s : String) : libraries.toText (.text s) = .ok s
  toText_refuses {v : Value} : v.mayBeText = false → ∃ kind, libraries.toText v = .error kind
  toWhole_of_isWhole {v : Value} {n : Int} : v.IsWhole n → libraries.toWhole v = .ok n
  toWhole_refuses {v : Value} : v.IsNoNumber → ∃ kind, libraries.toWhole v = .error kind

/-! ## Plain values of fields -/

/-- A plain value that can set a field. -/
def SettingField.Takes : SettingField → Value → Prop
  | .projectRoot, v | .userFolder, v | .definitionGlob, v => ∃ s, v = .text s
  | .maxRuleDepth, v => ∃ n, v.IsWhole n ∧ 1 ≤ n

/-- A plain value of the wrong kind for a field, or a depth below one. -/
def SettingField.Refuses : SettingField → Value → Prop
  | .projectRoot, v | .userFolder, v | .definitionGlob, v => v.mayBeText = false
  | .maxRuleDepth, v => v.IsNoNumber ∨ ∃ n, v.IsWhole n ∧ n < 1

/-- A field of the settings is what a plain value says. -/
def Settings.Shows (settings : Settings) : SettingField → Value → Prop
  | .projectRoot, v => ∃ s, v = .text s ∧ settings.projectRoot = .ofString s
  | .userFolder, v => ∃ s, v = .text s ∧ settings.userFolder = .ofString s
  | .maxRuleDepth, v => v.IsWhole settings.maxRuleDepth
  | .definitionGlob, v => v = .text settings.definitionGlob

namespace Libraries.Documented

variable {libraries : Libraries} {field : SettingField} {v : Value}

theorem fits (h : libraries.Documented) (htakes : field.Takes v) : field.Fits libraries v := by
  cases field with
  | projectRoot | userFolder =>
    obtain ⟨s, rfl⟩ := htakes
    exact ⟨_, h.toPath_text s⟩
  | maxRuleDepth =>
    obtain ⟨n, hwhole, hn⟩ := htakes
    exact ⟨n, h.toWhole_of_isWhole hwhole, hn⟩
  | definitionGlob =>
    obtain ⟨s, rfl⟩ := htakes
    exact ⟨_, h.toText_text s⟩

theorem not_fits (h : libraries.Documented) (hrefuses : field.Refuses v) :
    ¬field.Fits libraries v := by
  cases field with
  | projectRoot | userFolder =>
    rintro ⟨l, hl⟩
    obtain ⟨kind, herror⟩ := h.toPath_refuses hrefuses
    rw [herror] at hl
    cases hl
  | maxRuleDepth =>
    rintro ⟨n, hn, hlow⟩
    obtain hnone | ⟨m, hwhole, hm⟩ := hrefuses
    · obtain ⟨kind, herror⟩ := h.toWhole_refuses hnone
      rw [herror] at hn
      cases hn
    · rw [h.toWhole_of_isWhole hwhole, Except.ok.injEq] at hn
      omega
  | definitionGlob =>
    rintro ⟨s, hs⟩
    obtain ⟨kind, herror⟩ := h.toText_refuses hrefuses
    rw [herror] at hs
    cases hs

theorem shows (h : libraries.Documented) (htakes : field.Takes v) {settings : Settings}
    (hholds : settings.Holds libraries field v) : settings.Shows field v := by
  cases field with
  | projectRoot | userFolder =>
    obtain ⟨s, rfl⟩ := htakes
    exact ⟨s, rfl, Except.ok.inj (hholds.symm.trans (h.toPath_text s))⟩
  | maxRuleDepth =>
    obtain ⟨n, hwhole, -⟩ := htakes
    have hn : settings.maxRuleDepth = n :=
      Except.ok.inj (hholds.symm.trans (h.toWhole_of_isWhole hwhole))
    subst hn
    exact hwhole
  | definitionGlob =>
    obtain ⟨s, rfl⟩ := htakes
    have hs : settings.definitionGlob = s :=
      Except.ok.inj (hholds.symm.trans (h.toText_text s))
    exact congrArg Value.text hs.symm

end Libraries.Documented

/-! ## The conversions at hand -/

theorem Binary64.toRat_eq_intCast_iff (x : Binary64) (n : Int) :
    x.toRat = n ↔ x.signedUnits = n * unitsPerOne := by
  have hne : (unitsPerOne : ℚ) ≠ 0 := Nat.cast_ne_zero.mpr unitsPerOne_pos.ne'
  rw [toRat, div_eq_iff hne]
  exact_mod_cast Iff.rfl

theorem natAbs_withSign (minus : Bool) (n : Nat) : (withSign minus n).natAbs = n := by
  unfold withSign
  split <;> simp

theorem natCast_eq_mul_iff {units perOne : Nat} (hpos : 0 < perOne) (n : Int) :
    (units : Int) = n * perOne ↔ units % perOne = 0 ∧ n = (units / perOne : Nat) := by
  constructor
  · intro h
    have hdvd : perOne ∣ units := Int.natCast_dvd_natCast.mp ⟨n, h.trans (mul_comm ..)⟩
    refine ⟨Nat.mod_eq_zero_of_dvd hdvd, ?_⟩
    rw [Int.natCast_ediv, h, Int.mul_ediv_cancel _ (Int.natCast_ne_zero.mpr hpos.ne')]
  · rintro ⟨hmod, rfl⟩
    exact_mod_cast (Nat.div_mul_cancel (Nat.dvd_of_mod_eq_zero hmod)).symm

theorem signed_eq_mul_iff {units perOne : Nat} (hpos : 0 < perOne) (negative : Bool) (n : Int) :
    (if negative then -(units : Int) else units) = n * perOne ↔
      units % perOne = 0 ∧ n = withSign negative (units / perOne) := by
  cases negative with
  | false => exact natCast_eq_mul_iff hpos n
  | true =>
    calc -(units : Int) = n * perOne ↔ (units : Int) = -n * perOne := by
          rw [neg_mul, neg_eq_iff_eq_neg]
      _ ↔ units % perOne = 0 ∧ -n = (units / perOne : Nat) := natCast_eq_mul_iff hpos (-n)
      _ ↔ units % perOne = 0 ∧ n = withSign true (units / perOne) := by
          rw [neg_eq_iff_eq_neg]
          rfl

theorem wholeDouble_eq_ok_iff {x : Binary64} {n : Int} :
    wholeDouble x = .ok n ↔
      x.isFinite = true ∧ x.toRat = n ∧ n.natAbs < Nat.pow 2 63 := by
  have hpos := Binary64.unitsPerOne_pos
  rw [Binary64.toRat_eq_intCast_iff, Binary64.signedUnits, signed_eq_mul_iff hpos]
  unfold wholeDouble
  split_ifs with hfinite hwhole hlarge
  · simp only [false_iff]
    rintro ⟨h, -⟩
    simp [h] at hfinite
  · simp only [false_iff]
    rintro ⟨-, ⟨h, -⟩, -⟩
    exact hwhole h
  · simp only [false_iff]
    rintro ⟨-, ⟨-, rfl⟩, hsmall⟩
    rw [natAbs_withSign] at hsmall
    exact absurd ((Nat.le_div_iff_mul_le hpos).mpr hlarge) (Nat.not_le.mpr hsmall)
  · have hsmall : x.units / Binary64.unitsPerOne < Nat.pow 2 63 :=
      (Nat.div_lt_iff_lt_mul hpos).mpr (Nat.not_le.mp hlarge)
    simp only [Except.ok.injEq]
    constructor
    · rintro rfl
      exact ⟨by simpa using hfinite, ⟨not_not.mp hwhole, rfl⟩, by rwa [natAbs_withSign]⟩
    · rintro ⟨-, ⟨-, rfl⟩, -⟩
      rfl

/-- A text in which nothing can be padding is left as it is. -/
theorem unpad_eq_self {cs : List Char} (h : ∀ c ∈ cs, isBlank c = false) : unpad cs = cs := by
  have hdrop (ds : List Char) (hds : ∀ c ∈ ds, isBlank c = false) :
      ds.dropWhile isPadding = ds := by
    cases ds with
    | nil => rfl
    | cons c rest =>
      rw [List.dropWhile_cons_of_neg]
      simp [isPadding, hds c List.mem_cons_self]
  unfold unpad
  rw [hdrop cs h, hdrop cs.reverse fun c hc => h c (List.mem_reverse.mp hc), List.reverse_reverse]

theorem groupedDigits?_of_digits {ds : List Char} (hne : ds ≠ [])
    (h : ∀ d ∈ ds, d.isDigit = true) : groupedDigits? ds = some ds := by
  induction ds with
  | nil => exact absurd rfl hne
  | cons d rest ih =>
    have hd := h d List.mem_cons_self
    cases rest with
    | nil => simp [groupedDigits?, hd]
    | cons e rest =>
      have he := h e (List.mem_cons_of_mem _ List.mem_cons_self)
      have hunderscore : e ≠ '_' := by
        rintro rfl
        cases he
      have hrest := ih (List.cons_ne_nil _ _) fun d hd => h d (List.mem_cons_of_mem _ hd)
      rw [groupedDigits?.eq_4 _ _ (by simp) (by simpa using hunderscore), if_pos hd, hrest]
      rfl

/-- A numeral with nothing around it is read as its value, if it is not too long. -/
theorem wholeNumberOf_numeral {t : WholeNumeral} {s : String} (hchars : s.toList = t.chars)
    (hlimit : t.digits.length ≤ digitLimit) : wholeNumberOf s = .ok t.value := by
  have hfirst : ∀ c ∈ t.digits.head?, c ≠ '+' ∧ c ≠ '-' := fun c hc =>
    isSign_of_isDigit (t.decimal c (List.mem_of_mem_head? hc))
  have hsplit : splitSign t.chars = (t.sign.isMinus, t.digits) := t.sign.splitSign_append hfirst
  have hpoint : ∀ c ∈ t.digits, (c != '.') = true := by
    intro c hc
    rw [bne_iff_ne]
    rintro rfl
    exact absurd (t.decimal '.' hc) (by decide)
  have hspan : t.digits.span (· != '.') = (t.digits, []) := by
    rw [List.span_eq_takeWhile_dropWhile, List.takeWhile_eq_self_iff.mpr hpoint,
      List.dropWhile_eq_nil_iff.mpr hpoint]
  unfold wholeNumberOf
  rw [hchars, unpad_eq_self fun c hc => WholeNumeral.isBlank_of_mem_chars hc, hsplit]
  dsimp only
  rw [hspan]
  dsimp only
  rw [groupedDigits?_of_digits t.nonempty t.decimal]
  dsimp only
  rw [if_neg (by simp), if_neg (Nat.not_lt.mpr hlimit), t.withSign_decimalValue]

theorem wholeNumberOf_toString {n : Int} (h : n.natAbs < Nat.pow 2 63) :
    wholeNumberOf (toString n) = .ok n := by
  have hlimit : (Nat.toDigits 10 n.natAbs).length ≤ digitLimit := by
    have hnineteen : (Nat.toDigits 10 n.natAbs).length ≤ 19 := by
      rw [Nat.length_toDigits_le_iff (by decide) (by decide)]
      exact Nat.lt_of_lt_of_le h (by decide)
    exact Nat.le_trans hnineteen (by decide)
  rw [wholeNumberOf_numeral (usual_chars_eq_toString n).symm hlimit,
    WholeNumeral.value_usual, Sign.signed_ofInt]

theorem groupedDigits?_eq_none {cs : List Char} (h : ∀ c ∈ cs, c.isDigit = false) :
    groupedDigits? cs = none := by
  unfold groupedDigits?
  split
  · rfl
  all_goals exact if_neg (by simp [h])

theorem mem_of_mem_unpad {cs : List Char} {c : Char} (h : c ∈ unpad cs) : c ∈ cs := by
  have hfront := (List.dropWhile_sublist isPadding).subset (List.mem_reverse.mp h)
  exact (List.dropWhile_sublist isPadding).subset (List.mem_reverse.mp hfront)

/-- A text without a digit is no number. -/
theorem wholeNumberOf_of_wordy {s : String} (h : ∀ c ∈ s.toList, c.isDigit = false) :
    wholeNumberOf s = .error "int_parsing" := by
  obtain ⟨sign, hsign, -⟩ := Sign.exists_of_splitSign (unpad s.toList)
  have hwhole : ∀ c ∈ ((splitSign (unpad s.toList)).2.span (· != '.')).1, c.isDigit = false := by
    intro c hc
    rw [List.span_eq_takeWhile_dropWhile] at hc
    have hrest := (List.takeWhile_sublist _).subset hc
    exact h c (mem_of_mem_unpad (hsign ▸ List.mem_append_right _ hrest))
  unfold wholeNumberOf
  dsimp only
  rw [groupedDigits?_eq_none hwhole]

/-- The libraries of a program that is installed somewhere do as they are documented to. -/
theorem Libraries.documented_standard (installation : Location) :
    (standard installation).Documented where
  valueOf_nil := rfl
  toPath_text _ := rfl
  toPath_refuses {v} h := by
    cases v with
    | text s => cases h
    | null | bool _ | int _ | float _ | bytes _ | list _ | map _ | other _ _ => exact ⟨_, rfl⟩
  toText_text _ := rfl
  toText_refuses {v} h := by
    cases v with
    | text s | bytes bs => cases h
    | null | bool _ | int _ | float _ | list _ | map _ | other _ _ => exact ⟨_, rfl⟩
  toWhole_of_isWhole h := by
    cases h with
    | int n => rfl
    | bool b => rfl
    | float finite value small => exact wholeDouble_eq_ok_iff.mpr ⟨finite, value, small⟩
    | text small => exact wholeNumberOf_toString small
  toWhole_refuses h := by
    cases h with
    | null | list _ | map _ | other _ _ => exact ⟨_, rfl⟩
    | text wordy => exact ⟨_, wholeNumberOf_of_wordy wordy⟩
    | @float x fraction =>
      cases hwhole : wholeDouble x with
      | error kind => exact ⟨kind, hwhole⟩
      | ok n =>
        obtain ⟨finite, value, -⟩ := wholeDouble_eq_ok_iff.mp hwhole
        exact absurd ⟨finite, value⟩ (fraction n)

end CutsceneCatalog
