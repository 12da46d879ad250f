import CutsceneCatalog.Proofs.WholeNumeral

/-!
# Values written as texts

Every truth value and every whole number of 32 bits is read back from its usual text: `true` or
`false`, and decimal digits with a minus sign in front of a negative number.  The text of a number
is its usual numeral (`usual_chars_eq_toString`), and with 32 bits that numeral is short enough
(`length_toDigits_le_digitLimit`).
-/

namespace CutsceneCatalog

open Text

/-! ## Whole numbers -/

theorem length_toDigits_le_digitLimit {n : Nat} (h : n ≤ Nat.pow 2 31) :
    (Nat.toDigits 10 n).length ≤ digitLimit := by
  have hten : (Nat.toDigits 10 n).length ≤ 10 := by
    rw [Nat.length_toDigits_le_iff (by decide) (by decide)]
    exact Nat.lt_of_le_of_lt h (by decide)
  exact Nat.le_trans hten (by decide)

/-- The sign in the text of a whole number. -/
def Sign.ofInt (n : Int) : Sign := if n < 0 then .minus else .absent

theorem Sign.signed_ofInt (n : Int) : (Sign.ofInt n).signed n.natAbs = n := by
  unfold Sign.ofInt
  split
  · next hn =>
    have habs : -(n.natAbs : Int) = n := by omega
    exact habs
  · next hn =>
    have habs : (n.natAbs : Int) = n := by omega
    exact habs

theorem usual_chars_eq_toString (n : Int) :
    (WholeNumeral.usual (.ofInt n) 0 n.natAbs).chars = (toString n).toList := by
  cases n with
  | ofNat m => exact Nat.toList_repr.symm
  | negSucc m =>
    have hsign : (toString (Int.negSucc m)).toList = '-' :: (m + 1).repr.toList :=
      String.toList_append
    rw [hsign, Nat.toList_repr, Sign.ofInt, if_pos (Int.negSucc_lt_zero m)]
    rfl

/-- A whole number of 32 bits is read back from its decimal text. -/
theorem intOfText_toString {n : Int} (h : int32Min ≤ n ∧ n ≤ int32Max) :
    intOfText (toString n) = .ok n := by
  have hmin : int32Min = -(Nat.pow 2 31) := rfl
  have hmax : int32Max = Nat.pow 2 31 - 1 := rfl
  have hbound : n.natAbs ≤ Nat.pow 2 31 := by omega
  have hpadded : Padded (WholeNumeral.usual (.ofInt n) 0 n.natAbs).chars (toString n).toList := by
    rw [usual_chars_eq_toString]
    exact ⟨[], [], by simp, by simp, by simp⟩
  exact intOfText_eq_ok_iff.mpr ⟨_, hpadded, length_toDigits_le_digitLimit hbound,
    (WholeNumeral.value_usual _ 0 _).trans (Sign.signed_ofInt n), h⟩

/-! ## Truth values -/

theorem boolOfText_toString (b : Bool) : boolOfText (toString b) = .ok b := by
  cases b <;> rfl

end CutsceneCatalog
