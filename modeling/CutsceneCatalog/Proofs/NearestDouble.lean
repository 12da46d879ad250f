import CutsceneCatalog.Proofs.Rounding
import Mathlib.Algebra.Order.Ring.Abs
import Mathlib.Tactic.FieldSimp
import Mathlib.Tactic.LinearCombination

/-!
# Rounding to nearest keeps the order

A rounding rule picks from a growing sequence of values the one that is nearest to a number, and the
one at an even place if two are as near (`IsNearest`).  This alone determines the pick, and makes it
grow with the number (`IsNearest.le_of_le`); how the pick is computed no longer matters.

Whole numbers are one such sequence (`isNearest_roundHalfEven`).  The doubles are another, by their
units (`Binary64.isNearest_closest`): continued beyond the greatest finite one as if there were
binades without end, with all that is picked from infinity on being infinite
(`Binary64.IsRounded`).
-/

namespace CutsceneCatalog

/-! ## The nearest of a sequence of values -/

/-- The value at this place is as near to `x` as any, and if another is as near, the place is
even. -/
structure IsNearest (value : ℕ → ℚ) (x : ℚ) (place : ℕ) : Prop where
  near (other : ℕ) : |value place - x| ≤ |value other - x|
  even_of_tie (other : ℕ) (different : other ≠ place)
    (tie : |value other - x| = |value place - x|) : place % 2 = 0

namespace IsNearest

variable {value : ℕ → ℚ} {x y : ℚ} {place other : ℕ}

theorem self (hvalue : StrictMono value) (place : ℕ) :
    IsNearest value (value place) place where
  near other := by
    rw [sub_self, abs_zero]
    exact abs_nonneg _
  even_of_tie other different tie := by
    rw [sub_self, abs_zero, abs_eq_zero, sub_eq_zero] at tie
    exact absurd (hvalue.injective tie) different

/-- Of two places the one that is picked for the greater number is not the smaller one. -/
theorem le_of_le (hvalue : StrictMono value) (hx : IsNearest value x place)
    (hy : IsNearest value y other) (hle : x ≤ y) : place ≤ other := by
  by_contra hlt
  have hless : value other < value place := hvalue (Nat.lt_of_not_le hlt)
  have hnear := hx.near other
  have hnear' := hy.near place
  -- Both numbers lie on the half way between the two values, so they are one, and it is a tie.
  have hlow : value other + value place ≤ 2 * x := by
    rcases abs_cases (value place - x) with h | h <;>
      rcases abs_cases (value other - x) with h' | h' <;> linarith
  have hhigh : 2 * y ≤ value other + value place := by
    rcases abs_cases (value place - y) with h | h <;>
      rcases abs_cases (value other - y) with h' | h' <;> linarith
  obtain rfl : x = y := le_antisymm hle (by linarith)
  have htie : |value other - x| = |value place - x| := le_antisymm hnear' hnear
  have heven := hx.even_of_tie other (Nat.ne_of_lt (Nat.lt_of_not_le hlt)) htie
  have heven' := hy.even_of_tie place (Nat.ne_of_gt (Nat.lt_of_not_le hlt)) htie.symm
  -- Two even places have one between them, and its value is nearer.
  have hbelow : value other < value (other + 1) := hvalue (Nat.lt_succ_self other)
  have habove : value (other + 1) < value place := hvalue (by omega)
  have hbetween := hx.near (other + 1)
  rcases abs_cases (value place - x) with h | h <;>
    rcases abs_cases (value (other + 1) - x) with h' | h' <;> linarith

/-- Values and numbers may be measured in another unit. -/
theorem scale (h : IsNearest value x place) {c : ℚ} (hc : 0 < c) :
    IsNearest (fun n => value n * c) (x * c) place where
  near other := by
    rw [← sub_mul, ← sub_mul, abs_mul, abs_mul]
    exact mul_le_mul_of_nonneg_right (h.near other) (abs_nonneg c)
  even_of_tie other different tie := by
    rw [← sub_mul, ← sub_mul, abs_mul, abs_mul] at tie
    exact h.even_of_tie other different (mul_right_cancel₀ (abs_pos.mpr hc.ne').ne' tie)

end IsNearest

/-! ## Whole numbers -/

/-- A quotient is rounded to an odd number only if no other is as near. -/
theorem roundHalfEven_even_of_half {num den : ℕ} (hden : 0 < den)
    (h : 2 * num = 2 * (roundHalfEven num den * den) + den ∨
      2 * (roundHalfEven num den * den) = 2 * num + den) : roundHalfEven num den % 2 = 0 := by
  have hdiv : num / den * den + num % den = num := Nat.div_add_mod' num den
  have hmod : num % den < den := Nat.mod_lt num hden
  have hsucc : (num / den + 1) * den = num / den * den + den := Nat.succ_mul _ _
  unfold roundHalfEven at h ⊢
  dsimp only at h ⊢
  split
  · next hbelow =>
    simp only [if_pos hbelow] at h
    omega
  · next hbelow =>
    split
    · next habove =>
      simp only [if_neg hbelow, if_pos habove] at h
      omega
    · split <;> omega

theorem isNearest_roundHalfEven (num : ℕ) {den : ℕ} (hden : 0 < den) :
    IsNearest (fun n => (n : ℚ)) (num / den) (roundHalfEven num den) := by
  have hpos : (0 : ℚ) < den := Nat.cast_pos.mpr hden
  obtain ⟨hbelow, habove⟩ := roundHalfEven_near num hden
  generalize hrounded : roundHalfEven num den = rounded at hbelow habove ⊢
  have hlow : 2 * (num : ℚ) ≤ 2 * (rounded * den) + den := by exact_mod_cast hbelow
  have hhigh : 2 * (rounded * den : ℚ) ≤ 2 * num + den := by exact_mod_cast habove
  have hhalf : |(rounded : ℚ) - num / den| ≤ 1 / 2 := by
    have hlow' : (num / den : ℚ) ≤ rounded + 1 / 2 := by
      rw [div_le_iff₀ hpos]
      linarith
    have hhigh' : (rounded - 1 / 2 : ℚ) ≤ num / den := by
      rw [le_div_iff₀ hpos]
      linarith
    rw [abs_le]
    constructor <;> linarith
  -- Any other whole number is one away from this one, and therefore one half at least from the
  -- quotient.
  have hfar (other : ℕ) (hother : other ≠ rounded) :
      1 ≤ |(other : ℚ) - num / den| + |(rounded : ℚ) - num / den| := by
    have hint : (1 : ℤ) ≤ |(other : ℤ) - rounded| := Int.one_le_abs (by omega)
    have hone : (1 : ℚ) ≤ |(other : ℚ) - rounded| := by exact_mod_cast hint
    have htriangle := abs_sub_le (other : ℚ) (num / den) rounded
    rw [abs_sub_comm (num / den : ℚ)] at htriangle
    exact hone.trans htriangle
  constructor
  · intro other
    by_cases hother : other = rounded
    · rw [hother]
    · have hone := hfar other hother
      linarith
  · intro other different tie
    have hone := hfar other different
    have heq : |(rounded : ℚ) - num / den| = 1 / 2 := by linarith
    subst hrounded
    apply roundHalfEven_even_of_half hden
    have hnum : (num / den * den : ℚ) = num := div_mul_cancel₀ _ hpos.ne'
    rcases (abs_eq (by norm_num)).mp heq with h | h
    · have hcast : 2 * (roundHalfEven num den * den : ℚ) = 2 * num + den := by
        linear_combination 2 * (den : ℚ) * h + 2 * hnum
      exact .inr (by exact_mod_cast hcast)
    · have hcast : 2 * (num : ℚ) = 2 * (roundHalfEven num den * den) + den := by
        linear_combination -2 * (den : ℚ) * h - 2 * hnum
      exact .inl (by exact_mod_cast hcast)

/-! ## Doubles -/

namespace Binary64

/-- The values of the magnitudes, in units. -/
def valueOf (magnitude : ℕ) : ℚ := unitsOf magnitude

theorem valueOf_strictMono : StrictMono valueOf := fun _ _ h =>
  Nat.cast_lt.mpr (unitsOf_strictMono h)

/-- Every magnitude is a whole number of steps of a binade, or lies below that binade. -/
theorem unitsOf_grid (shift magnitude : ℕ) :
    (∃ steps, unitsOf magnitude = steps * Nat.pow 2 shift) ∨
      unitsOf magnitude < Nat.pow 2 52 * Nat.pow 2 shift ∧ shift ≠ 0 := by
  by_cases hshift : shift = 0
  · subst hshift
    exact .inl ⟨unitsOf magnitude, (Nat.mul_one _).symm⟩
  by_cases hbelow : magnitude < (shift + 1) * Nat.pow 2 52
  · right
    have hfirst : unitsOf ((shift + 1) * Nat.pow 2 52 + 0) = _ :=
      unitsOf_binade (shift + 1) (Nat.two_pow_pos 52)
    rw [if_neg (Nat.succ_ne_zero shift), Nat.add_zero, Nat.add_zero, Nat.add_sub_cancel] at hfirst
    exact ⟨hfirst ▸ unitsOf_strictMono hbelow, hshift⟩
  · left
    have hbinade : shift + 1 ≤ magnitude / Nat.pow 2 52 :=
      (Nat.le_div_iff_mul_le (Nat.two_pow_pos 52)).mpr (Nat.le_of_not_lt hbelow)
    have hne : magnitude / Nat.pow 2 52 ≠ 0 := by omega
    have hsplit : Nat.pow 2 (magnitude / Nat.pow 2 52 - 1) =
        Nat.pow 2 (magnitude / Nat.pow 2 52 - 1 - shift) * Nat.pow 2 shift := by
      have hsum : magnitude / Nat.pow 2 52 - 1 - shift + shift = magnitude / Nat.pow 2 52 - 1 := by
        omega
      exact (congrArg (Nat.pow 2) hsum).symm.trans (Nat.pow_add 2 _ _)
    exact ⟨_, by rw [unitsOf, if_neg hne, hsplit, ← Nat.mul_assoc]⟩

theorem isNearest_closest (num : ℕ) {den : ℕ} (hden : 0 < den) :
    IsNearest valueOf (num / den) (closest num den) := by
  have hstep : 0 < stepOf num den := stepOf_pos num den
  have hstepCast : (0 : ℚ) < stepOf num den := Nat.cast_pos.mpr hstep
  have hdenCast : (0 : ℚ) < den := Nat.cast_pos.mpr hden
  have hself : valueOf (closest num den) =
      roundHalfEven num (den * stepOf num den) * stepOf num den := by
    rw [valueOf, unitsOf_closest num hden, Nat.cast_mul]
  -- Among the whole numbers of steps, the one that is picked is nearest.
  have hgrid := (isNearest_roundHalfEven num (Nat.mul_pos hden hstep)).scale hstepCast
  have hratio : (num / (den * stepOf num den : ℕ) * stepOf num den : ℚ) = num / den := by
    rw [Nat.cast_mul]
    field_simp
  rw [hratio] at hgrid
  have hother (other : ℕ) : (∃ steps : ℕ, valueOf other = steps * stepOf num den) ∨
      |(Nat.pow 2 52 : ℕ) * stepOf num den - (num / den : ℚ)| < |valueOf other - num / den| := by
    rcases unitsOf_grid ((num / den).log2 - 52) other with ⟨steps, hsteps⟩ | ⟨hbelow, hshift⟩
    · exact .inl ⟨steps, by rw [valueOf, hsteps, Nat.cast_mul]; rfl⟩
    · -- What lies below the binade is farther away than the first number in it.
      right
      have hlog : 52 ≤ (num / den).log2 := by omega
      have hne : num / den ≠ 0 := by
        intro hzero
        rw [hzero] at hlog
        exact absurd hlog (by decide)
      have hsteps := steps_le hden ((Nat.le_log2 hne).mp hlog)
      have hfirst : ((Nat.pow 2 52 : ℕ) * stepOf num den : ℚ) ≤ num / den := by
        rw [le_div_iff₀ hdenCast]
        calc ((Nat.pow 2 52 : ℕ) * stepOf num den * den : ℚ)
            = (Nat.pow 2 52 * (den * stepOf num den) : ℕ) := by
              rw [Nat.cast_mul, Nat.cast_mul, mul_assoc, mul_comm (den : ℚ)]
          _ ≤ num := Nat.cast_le.mpr hsteps
      have hless : valueOf other < (Nat.pow 2 52 : ℕ) * stepOf num den := by
        rw [valueOf, ← Nat.cast_mul]
        exact Nat.cast_lt.mpr hbelow
      rw [abs_of_nonpos (by linarith), abs_of_neg (by linarith)]
      linarith
  constructor
  · intro other
    rw [hself]
    rcases hother other with ⟨steps, hsteps⟩ | hfar
    · rw [hsteps]
      exact hgrid.near steps
    · exact (hgrid.near (Nat.pow 2 52)).trans hfar.le
  · intro other different tie
    rw [hself] at tie
    have heven : roundHalfEven num (den * stepOf num den) % 2 = 0 := by
      rcases hother other with ⟨steps, hsteps⟩ | hfar
      · rw [hsteps] at tie
        refine hgrid.even_of_tie steps ?_ tie
        rintro rfl
        exact different (valueOf_strictMono.injective (hsteps.trans hself.symm))
      · exact absurd tie (ne_of_gt ((hgrid.near (Nat.pow 2 52)).trans_lt hfar))
    have hplace : Nat.pow 2 52 = 2 * Nat.pow 2 51 := rfl
    show (((num / den).log2 - 52) * Nat.pow 2 52 + roundHalfEven num (den * stepOf num den)) % 2 = 0
    rw [hplace, Nat.mul_left_comm, Nat.mul_add_mod]
    exact heven

/-- The double is the number `x`, which is not negative, rounded to nearest with ties to even; what
would be rounded to more than the greatest finite double is infinite.  The sign is left open. -/
def IsRounded (double : Binary64) (x : ℚ) : Prop :=
  ∃ place, IsNearest valueOf (x * unitsPerOne) place ∧ double.magnitude = min place infinite

theorem isRounded_nearest (negative : Bool) (num : ℕ) {den : ℕ} (hden : 0 < den) :
    (nearest negative num den).IsRounded (num / den) := by
  refine ⟨closest (num * unitsPerOne) den, ?_, rfl⟩
  have h := isNearest_closest (num * unitsPerOne) hden
  rwa [Nat.cast_mul, mul_div_right_comm] at h

namespace IsRounded

variable {double double' : Binary64} {x y : ℚ}

theorem isNaN_eq_false (h : double.IsRounded x) : double.isNaN = false := by
  obtain ⟨place, -, hmagnitude⟩ := h
  have hle : double.magnitude ≤ infinite := hmagnitude ▸ Nat.min_le_right ..
  exact decide_eq_false (Nat.not_lt.mpr hle)

theorem magnitude_le (h : double.IsRounded x) (h' : double'.IsRounded y) (hle : x ≤ y) :
    double.magnitude ≤ double'.magnitude := by
  obtain ⟨place, hplace, hmagnitude⟩ := h
  obtain ⟨place', hplace', hmagnitude'⟩ := h'
  have hpos : (0 : ℚ) ≤ unitsPerOne := Nat.cast_nonneg _
  have hplaces := hplace.le_of_le valueOf_strictMono hplace' (mul_le_mul_of_nonneg_right hle hpos)
  rw [hmagnitude, hmagnitude']
  exact min_le_min_right infinite hplaces

theorem unique (h : double.IsRounded x) (h' : double'.IsRounded x)
    (hsign : double.negative = double'.negative) : double = double' := by
  have hmagnitude : double.magnitude = double'.magnitude :=
    Nat.le_antisymm (h.magnitude_le h' le_rfl) (h'.magnitude_le h le_rfl)
  obtain ⟨negative, magnitude, bound⟩ := double
  obtain ⟨negative', magnitude', bound'⟩ := double'
  obtain rfl : negative = negative' := hsign
  obtain rfl : magnitude = magnitude' := hmagnitude
  rfl

end IsRounded

end Binary64

end CutsceneCatalog
