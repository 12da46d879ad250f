import CutsceneCatalog.Color
import CutsceneCatalog.Proofs.DoubleOrder

/-!
# How far rounding moves a number

Rounding to a whole number moves a quotient by one half at most (`roundHalfEven_near`).  Rounding to
a double is the same at another scale: the units of the closest double are a quotient rounded to a
whole number of steps of its binade (`Binary64.unitsOf_closest`), so a ratio is moved by its
`2 ^ 53`-rd part at most (`Binary64.closest_near`).

A byte that is read as a channel and written again is rounded three times, and two such parts of it
are too little to lead to another whole number: `Channel.toByte_ofByte`.
-/

namespace CutsceneCatalog

/-! ## Whole numbers -/

theorem roundHalfEven_near (num : Nat) {den : Nat} (h : 0 < den) :
    2 * num ≤ 2 * (roundHalfEven num den * den) + den ∧
      2 * (roundHalfEven num den * den) ≤ 2 * num + den := by
  have hdiv : num / den * den + num % den = num := Nat.div_add_mod' num den
  have hmod : num % den < den := Nat.mod_lt num h
  have hsucc : (num / den + 1) * den = num / den * den + den := Nat.succ_mul _ _
  unfold roundHalfEven
  dsimp only
  split
  · omega
  · split
    · omega
    · split <;> omega

theorem roundHalfEven_le {num den n : Nat} (hden : 0 < den) (h : 2 * num < 2 * (n * den) + den) :
    roundHalfEven num den ≤ n := by
  have hnear := (roundHalfEven_near num hden).2
  have hlt : roundHalfEven num den * den < (n + 1) * den := by
    rw [Nat.succ_mul]
    omega
  exact Nat.le_of_lt_succ (Nat.lt_of_mul_lt_mul_right hlt)

theorem le_roundHalfEven {num den n : Nat} (hden : 0 < den) (h : 2 * (n * den) < 2 * num + den) :
    n ≤ roundHalfEven num den := by
  have hnear := (roundHalfEven_near num hden).1
  have hlt : n * den < (roundHalfEven num den + 1) * den := by
    rw [Nat.succ_mul]
    omega
  exact Nat.le_of_lt_succ (Nat.lt_of_mul_lt_mul_right hlt)

/-- What is less than one half away from a whole number is rounded to it. -/
theorem roundHalfEven_eq_of_near {num den n : Nat} (hden : 0 < den)
    (hbelow : 2 * (n * den) < 2 * num + den) (habove : 2 * num < 2 * (n * den) + den) :
    roundHalfEven num den = n :=
  Nat.le_antisymm (roundHalfEven_le hden habove) (le_roundHalfEven hden hbelow)

/-! ## Doubles -/

namespace Binary64

/-- A whole number of steps of a binade, in units.  The number may be the first of the next binade,
and in the lowest two binades it may be anything. -/
theorem unitsOf_steps {shift steps : Nat} (hlow : shift ≠ 0 → Nat.pow 2 52 ≤ steps)
    (hhigh : steps ≤ Nat.pow 2 53) :
    unitsOf (shift * Nat.pow 2 52 + steps) = steps * Nat.pow 2 shift := by
  have htwice : Nat.pow 2 53 = 2 * Nat.pow 2 52 := rfl
  have hpos : 0 < Nat.pow 2 52 := Nat.two_pow_pos 52
  by_cases hsmall : steps < Nat.pow 2 52
  · have hzero : shift = 0 := by
      by_contra hne
      exact absurd hsmall (Nat.not_lt.mpr (hlow hne))
    rw [unitsOf_binade shift hsmall, if_pos hzero, hzero]
    exact (Nat.mul_one steps).symm
  · by_cases hlast : steps = Nat.pow 2 53
    · have hnext : shift * Nat.pow 2 52 + steps = (shift + 2) * Nat.pow 2 52 + 0 := by
        rw [hlast, htwice, Nat.add_mul, Nat.add_zero]
      have hstep : Nat.pow 2 (shift + 1) = Nat.pow 2 shift * 2 := rfl
      rw [hnext, unitsOf_binade (shift + 2) hpos, if_neg (Nat.succ_ne_zero _), hlast, htwice]
      calc (Nat.pow 2 52 + 0) * Nat.pow 2 (shift + 1)
          = Nat.pow 2 52 * (Nat.pow 2 shift * 2) := by rw [hstep, Nat.add_zero]
        _ = 2 * Nat.pow 2 52 * Nat.pow 2 shift := by
          rw [Nat.mul_comm (Nat.pow 2 shift) 2, ← Nat.mul_assoc, Nat.mul_comm (Nat.pow 2 52) 2]
    · have hplace : steps - Nat.pow 2 52 < Nat.pow 2 52 := by omega
      have hbinade : shift * Nat.pow 2 52 + steps =
          (shift + 1) * Nat.pow 2 52 + (steps - Nat.pow 2 52) := by
        rw [Nat.succ_mul]
        omega
      have hsum : Nat.pow 2 52 + (steps - Nat.pow 2 52) = steps := by omega
      rw [hbinade, unitsOf_binade (shift + 1) hplace, if_neg (Nat.succ_ne_zero _), hsum,
        Nat.add_sub_cancel]

/-- The power of two that is one step of the binade of a ratio, in units. -/
def stepOf (num den : Nat) : Nat := Nat.pow 2 ((num / den).log2 - 52)

theorem stepOf_pos (num den : Nat) : 0 < stepOf num den := Nat.two_pow_pos _

/-- A ratio is less than `2 ^ 53` steps of its binade. -/
theorem lt_steps (num : Nat) {den : Nat} (hden : 0 < den) :
    num < Nat.pow 2 53 * (den * stepOf num den) := by
  have hlog : num / den < Nat.pow 2 ((num / den).log2 + 1) := Nat.lt_log2_self
  have hexponent : Nat.pow 2 ((num / den).log2 + 1) ≤
      Nat.pow 2 (53 + ((num / den).log2 - 52)) := Nat.pow_le_pow_right (by decide) (by omega)
  have hsplit : Nat.pow 2 (53 + ((num / den).log2 - 52)) = Nat.pow 2 53 * stepOf num den :=
    Nat.pow_add 2 53 _
  have hquotient : num / den < Nat.pow 2 53 * stepOf num den := by omega
  rw [Nat.div_lt_iff_lt_mul hden] at hquotient
  rwa [Nat.mul_comm den, ← Nat.mul_assoc]

/-- A ratio of `2 ^ 52` units at least is so many steps of its binade at least. -/
theorem steps_le {num den : Nat} (hden : 0 < den) (h : Nat.pow 2 52 ≤ num / den) :
    Nat.pow 2 52 * (den * stepOf num den) ≤ num := by
  have hne : num / den ≠ 0 := by
    have hpos : 0 < Nat.pow 2 52 := Nat.two_pow_pos 52
    omega
  have hlog : 52 ≤ (num / den).log2 := (Nat.le_log2 hne).mpr h
  have hself : Nat.pow 2 (num / den).log2 ≤ num / den := Nat.log2_self_le hne
  have hsplit : Nat.pow 2 (52 + ((num / den).log2 - 52)) = Nat.pow 2 52 * stepOf num den :=
    Nat.pow_add 2 52 _
  rw [Nat.add_sub_cancel' hlog] at hsplit
  rw [hsplit, Nat.le_div_iff_mul_le hden] at hself
  rwa [Nat.mul_comm den, ← Nat.mul_assoc]

theorem unitsOf_closest (num : Nat) {den : Nat} (hden : 0 < den) :
    unitsOf (closest num den) =
      roundHalfEven num (den * stepOf num den) * stepOf num den := by
  have hstep : 0 < den * stepOf num den := Nat.mul_pos hden (stepOf_pos num den)
  refine unitsOf_steps (fun hshift => ?_) ?_
  · have hlog : 52 ≤ (num / den).log2 := by omega
    have hne : num / den ≠ 0 := by
      intro hzero
      rw [hzero] at hlog
      exact absurd hlog (by decide)
    have hsteps := steps_le hden ((Nat.le_log2 hne).mp hlog)
    exact le_roundHalfEven hstep (Nat.lt_of_le_of_lt (Nat.mul_le_mul_left 2 hsteps)
      (Nat.lt_add_of_pos_right hstep))
  · have hsteps := Nat.mul_lt_mul_of_pos_left (lt_steps num hden) Nat.zero_lt_two
    exact roundHalfEven_le hstep (Nat.lt_of_lt_of_le hsteps (Nat.le_add_right _ _))

/-- A number that is away from another by the `2 ^ 53`-rd part of that at most. -/
def Near (a b : Nat) : Prop :=
  Nat.pow 2 53 * a ≤ Nat.pow 2 53 * b + a ∧ Nat.pow 2 53 * b ≤ Nat.pow 2 53 * a + a

theorem Near.of_mul {a b c : Nat} (hc : 0 < c) (h : Near (a * c) (b * c)) : Near a b := by
  constructor
  · apply Nat.le_of_mul_le_mul_right _ hc
    rw [Nat.add_mul, Nat.mul_assoc, Nat.mul_assoc]
    exact h.1
  · apply Nat.le_of_mul_le_mul_right _ hc
    rw [Nat.add_mul, Nat.mul_assoc, Nat.mul_assoc]
    exact h.2

/-- The closest double is near to a ratio, unless the ratio is tiny. -/
theorem closest_near {num den : Nat} (hden : 0 < den) (h : Nat.pow 2 52 ≤ num / den) :
    Near num (unitsOf (closest num den) * den) := by
  have hstep : 0 < den * stepOf num den := Nat.mul_pos hden (stepOf_pos num den)
  have hnear := roundHalfEven_near num hstep
  have hsteps := steps_le hden h
  have hunits : unitsOf (closest num den) * den =
      roundHalfEven num (den * stepOf num den) * (den * stepOf num den) := by
    rw [unitsOf_closest num hden, Nat.mul_assoc, Nat.mul_comm (stepOf num den) den]
  have htwice : Nat.pow 2 53 = 2 * Nat.pow 2 52 := rfl
  have hpower : Nat.pow 2 52 = 4503599627370496 := rfl
  rw [Near, hunits, htwice, hpower]
  rw [hpower] at hsteps
  omega

/-- What is not more than a million is far below infinity. -/
theorem million_le_infinite : 1000000 * unitsPerOne * 2 ≤ unitsOf infinite := by decide +kernel

/-- A ratio that is neither tiny nor huge is rounded to a double near to it. -/
theorem units_nearest_near (negative : Bool) (num : Nat) {den : Nat} (hden : 0 < den)
    (hlow : Nat.pow 2 52 * den ≤ num * unitsPerOne) (hhigh : num ≤ 1000000 * den) :
    Near (num * unitsPerOne) ((nearest negative num den).units * den) := by
  have hnear := closest_near hden ((Nat.le_div_iff_mul_le hden).mpr hlow)
  have hpower : Nat.pow 2 53 = 9007199254740992 := rfl
  have hsize : num * unitsPerOne ≤ 1000000 * unitsPerOne * den := by
    calc num * unitsPerOne ≤ 1000000 * den * unitsPerOne := Nat.mul_le_mul_right _ hhigh
      _ = 1000000 * unitsPerOne * den := Nat.mul_right_comm ..
  have hbound : unitsOf (closest (num * unitsPerOne) den) * den ≤
      1000000 * unitsPerOne * 2 * den := by
    rw [Nat.mul_right_comm]
    rw [Near, hpower] at hnear
    omega
  have hunits : unitsOf (closest (num * unitsPerOne) den) ≤ unitsOf infinite :=
    Nat.le_trans (Nat.le_of_mul_le_mul_right hbound hden) million_le_infinite
  have hfinite : closest (num * unitsPerOne) den ≤ infinite :=
    unitsOf_strictMono.le_iff_le.mp hunits
  have hclosest : (nearest negative num den).units = unitsOf (closest (num * unitsPerOne) den) :=
    congrArg unitsOf (Nat.min_eq_left hfinite)
  rwa [hclosest]

/-- A product that is neither tiny nor huge is rounded to a double near to it. -/
theorem units_scale_near (x : Binary64) (factor : Nat) (hlow : Nat.pow 2 52 ≤ x.units * factor)
    (hhigh : x.units * factor ≤ 1000000 * unitsPerOne) :
    Near (x.units * factor) (x.scale factor).units :=
  (units_nearest_near x.negative (x.units * factor) unitsPerOne_pos
    (Nat.mul_le_mul_right _ hlow) hhigh).of_mul unitsPerOne_pos

end Binary64

/-! ## Bytes -/

open Binary64

section

variable {byte read written one : Nat} (hbyte : byte ≤ 255) (hread : Near (byte * one) (read * 255))
include hbyte hread

/-- The units of a byte divided by 255, times 255, are neither few nor many. -/
theorem le_read_and_read_le (hpos : 1 ≤ byte) (hone : Nat.pow 2 53 ≤ one) :
    Nat.pow 2 52 ≤ read * 255 ∧ read * 255 ≤ 1000000 * one := by
  have hpower : Nat.pow 2 53 = 9007199254740992 := rfl
  have hhalf : Nat.pow 2 52 = 4503599627370496 := rfl
  have hlow : 1 * one ≤ byte * one := Nat.mul_le_mul_right one hpos
  have hhigh : byte * one ≤ 255 * one := Nat.mul_le_mul_right one hbyte
  rw [Near, hpower] at hread
  rw [hpower] at hone
  rw [hhalf]
  omega

/-- What is near to a number near to a byte is less than one half away from it. -/
theorem half_near_of_near_near (hwritten : Near (read * 255) written) (hone : 0 < one) :
    2 * (byte * one) < 2 * written + one ∧ 2 * written < 2 * (byte * one) + one := by
  have hpower : Nat.pow 2 53 = 9007199254740992 := rfl
  have hhigh : byte * one ≤ 255 * one := Nat.mul_le_mul_right one hbyte
  rw [Near, hpower] at hread hwritten
  omega

end

/-- A byte that is read as a channel is written as the same byte. -/
theorem Channel.toByte_ofByte (b : Fin 256) : (ofByte b).toByte = b.val := by
  by_cases hzero : b = 0
  · subst hzero
    decide +kernel
  have hpos : 0 < b.val := Nat.pos_of_ne_zero fun h => hzero (Fin.ext h)
  have hbyte : b.val ≤ 255 := Nat.le_of_lt_succ b.isLt
  have hone : Nat.pow 2 53 ≤ unitsPerOne := by decide +kernel
  have hlarge : Nat.pow 2 52 * 255 ≤ unitsPerOne := by decide +kernel
  have hself : unitsPerOne ≤ b.val * unitsPerOne := Nat.le_mul_of_pos_left unitsPerOne hpos
  have hsmall : b.val ≤ 1000000 * 255 := Nat.le_trans hbyte (by decide)
  -- Dividing by 255 moves the byte by a small part of it, and multiplying by 255 by another.
  have hread : Near (b.val * unitsPerOne) ((nearest false b.val 255).units * 255) :=
    units_nearest_near false b.val (show 0 < 255 by decide) (Nat.le_trans hlarge hself) hsmall
  obtain ⟨hlow, hhigh⟩ := le_read_and_read_le hbyte hread hpos hone
  have hwritten := units_scale_near (nearest false b.val 255) 255 hlow hhigh
  obtain ⟨hbelow, habove⟩ := half_near_of_near_near hbyte hread hwritten unitsPerOne_pos
  have hrounded : roundHalfEven ((nearest false b.val 255).scale 255).units unitsPerOne = b.val :=
    roundHalfEven_eq_of_near unitsPerOne_pos hbelow habove
  exact congrArg Int.ofNat hrounded

end CutsceneCatalog
