import CutsceneCatalog.Binary64
import Mathlib.Algebra.Order.Field.Rat
import Mathlib.Order.Monotone.Basic
import Mathlib.Tactic.Linarith

/-!
# Doubles as rational numbers

Doubles are ordered by their bits (`Binary64.rank`, `Binary64.le`).  A finite double is also a
rational number, a signed number of units (`Binary64.toRat`), and what a text or a color means is
said in such numbers.  `Binary64.le_eq_true_iff` is the main statement: on finite doubles the two
orders are one.

It rests on the magnitudes alone.  From one magnitude to the next the units grow, within a binade by
one step of it and from its last magnitude to the first of the next binade as well
(`Binary64.unitsOf_lt_succ`).
-/

namespace CutsceneCatalog
namespace Binary64

/-! ## Units of a magnitude -/

/-- The units of a magnitude, by the number of its binade and its place there. -/
theorem unitsOf_binade (binade : Nat) {place : Nat} (h : place < Nat.pow 2 52) :
    unitsOf (binade * Nat.pow 2 52 + place) =
      if binade = 0 then place else (Nat.pow 2 52 + place) * Nat.pow 2 (binade - 1) := by
  have hdiv : (binade * Nat.pow 2 52 + place) / Nat.pow 2 52 = binade := by
    rw [Nat.mul_comm, Nat.mul_add_div (by decide), Nat.div_eq_of_lt h, Nat.add_zero]
  have hmod : (binade * Nat.pow 2 52 + place) % Nat.pow 2 52 = place := by
    rw [Nat.mul_comm, Nat.mul_add_mod, Nat.mod_eq_of_lt h]
  rw [unitsOf, hdiv, hmod]

theorem unitsOf_lt_succ (magnitude : Nat) : unitsOf magnitude < unitsOf (magnitude + 1) := by
  obtain ⟨binade, place, hplace, rfl⟩ :
      ∃ binade place, place < Nat.pow 2 52 ∧ magnitude = binade * Nat.pow 2 52 + place :=
    ⟨magnitude / Nat.pow 2 52, magnitude % Nat.pow 2 52, Nat.mod_lt _ (by decide),
      (Nat.div_add_mod' ..).symm⟩
  rw [unitsOf_binade binade hplace]
  by_cases hlast : place + 1 = Nat.pow 2 52
  · -- The next magnitude is the first of the next binade.
    have hnext : binade * Nat.pow 2 52 + place + 1 = (binade + 1) * Nat.pow 2 52 + 0 := by
      rw [Nat.add_assoc, hlast, Nat.succ_mul, Nat.add_zero]
    rw [hnext, unitsOf_binade (binade + 1) (by decide), if_neg (Nat.succ_ne_zero binade)]
    cases binade with
    | zero => simpa using hplace
    | succ n =>
      have hstep : Nat.pow 2 (n + 1) = 2 * Nat.pow 2 n := Nat.pow_succ'
      have hpos : 0 < Nat.pow 2 n := Nat.two_pow_pos n
      simp only [Nat.succ_ne_zero, if_false, Nat.add_sub_cancel, Nat.add_zero]
      rw [hstep, ← Nat.mul_assoc, Nat.mul_comm _ 2]
      exact Nat.mul_lt_mul_of_pos_right (by omega) hpos
  · have hnext : place + 1 < Nat.pow 2 52 := by omega
    rw [Nat.add_assoc, unitsOf_binade binade hnext]
    split
    · exact Nat.lt_succ_self place
    · exact Nat.mul_lt_mul_of_pos_right (by omega) (Nat.two_pow_pos _)

theorem unitsOf_strictMono : StrictMono unitsOf := strictMono_nat_of_lt_succ unitsOf_lt_succ

@[simp] theorem unitsOf_zero : unitsOf 0 = 0 := by decide

/-! ## The number that a double is -/

/-- The units of a finite double, with its sign. -/
def signedUnits (x : Binary64) : Int := if x.negative then -(x.units : Int) else x.units

/-- The rational number that a finite double is. -/
def toRat (x : Binary64) : ℚ := x.signedUnits / unitsPerOne

theorem rank_le_rank_iff (x y : Binary64) : x.rank ≤ y.rank ↔ x.signedUnits ≤ y.signedUnits := by
  have hle : x.magnitude ≤ y.magnitude ↔ x.units ≤ y.units := unitsOf_strictMono.le_iff_le.symm
  have hge : y.magnitude ≤ x.magnitude ↔ y.units ≤ x.units := unitsOf_strictMono.le_iff_le.symm
  have hzero (z : Binary64) : z.magnitude = 0 ↔ z.units = 0 := by
    unfold units
    constructor
    · intro h
      rw [h, unitsOf_zero]
    · intro h
      exact unitsOf_strictMono.injective (h.trans unitsOf_zero.symm)
  have hx := hzero x
  have hy := hzero y
  unfold rank signedUnits
  split <;> split <;> omega

theorem unitsPerOne_pos : 0 < unitsPerOne := by decide +kernel

theorem toRat_le_toRat_iff (x y : Binary64) : x.toRat ≤ y.toRat ↔ x.rank ≤ y.rank := by
  have hpos : (0 : ℚ) < unitsPerOne := Nat.cast_pos.mpr unitsPerOne_pos
  rw [rank_le_rank_iff, toRat, toRat, div_le_div_iff_of_pos_right hpos, Int.cast_le]

theorem isNaN_eq_false_of_isFinite {x : Binary64} (h : x.isFinite = true) : x.isNaN = false := by
  have hlt : x.magnitude < infinite := of_decide_eq_true h
  exact decide_eq_false (Nat.not_lt.mpr (Nat.le_of_lt hlt))

/-- Finite doubles are ordered as the numbers they are. -/
theorem le_eq_true_iff {x y : Binary64} (hx : x.isFinite = true) (hy : y.isFinite = true) :
    x.le y = true ↔ x.toRat ≤ y.toRat := by
  rw [toRat_le_toRat_iff, le, isNaN_eq_false_of_isFinite hx, isNaN_eq_false_of_isFinite hy]
  simp

@[simp] theorem toRat_zero (negative : Bool) : (zero negative).toRat = 0 := by
  have hsigned : (zero negative).signedUnits = 0 := by
    cases negative <;> rfl
  rw [toRat, hsigned, Int.cast_zero, zero_div]

@[simp] theorem toRat_one : one.toRat = 1 := by
  have hunits : one.signedUnits = unitsPerOne := by decide +kernel
  have hpos : (unitsPerOne : ℚ) ≠ 0 := Nat.cast_ne_zero.mpr unitsPerOne_pos.ne'
  rw [toRat, hunits, Int.cast_natCast, div_self hpos]

/-- What lies between zero and one is finite. -/
theorem isFinite_of_le_one {x : Binary64} (hzero : (zero false).le x = true)
    (hone : x.le one = true) : x.isFinite = true := by
  have hlow : (zero false).rank ≤ x.rank := by
    unfold le at hzero
    simp only [Bool.and_eq_true, decide_eq_true_eq] at hzero
    exact hzero.2
  have hhigh : x.rank ≤ one.rank := by
    unfold le at hone
    simp only [Bool.and_eq_true, decide_eq_true_eq] at hone
    exact hone.2
  have hbound : one.rank < infinite := by decide
  have hstart : (zero false).rank = 0 := rfl
  have hrank : x.rank = if x.negative then -(x.magnitude : Int) else x.magnitude := rfl
  apply decide_eq_true
  split at hrank <;> omega

end Binary64
end CutsceneCatalog
