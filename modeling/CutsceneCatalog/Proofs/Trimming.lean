import CutsceneCatalog.Text.Blank
import Mathlib.Data.List.TakeWhile

/-!
# Texts without the blanks around them

Trimming a text leaves the one part of it that begins and ends with no blank and has nothing but
blanks around it.  `Text.trimChars_eq_iff` says so without the search from either end, so that a
grammar can name the blanks around a text as a part of its own (`Text.Padded`).
-/

namespace CutsceneCatalog
namespace Text

theorem dropWhile_isBlank_eq_iff {cs core : List Char} :
    cs.dropWhile isBlank = core ↔
      ∃ before, cs = before ++ core ∧ (∀ c ∈ before, isBlank c = true) ∧
        ∀ c ∈ core.head?, isBlank c = false := by
  constructor
  · rintro rfl
    refine ⟨cs.takeWhile isBlank, List.takeWhile_append_dropWhile.symm,
      fun c hc => List.mem_takeWhile_imp hc, ?_⟩
    intro c hc
    have hfirst := List.head?_dropWhile_not isBlank cs
    rwa [Option.mem_def.mp hc] at hfirst
  · rintro ⟨before, rfl, hbefore, hcore⟩
    rw [List.dropWhile_append_of_pos hbefore]
    cases core with
    | nil => rfl
    | cons c core =>
      have hc : isBlank c = false := hcore c rfl
      exact List.dropWhile_cons_of_neg (by simp [hc])

theorem trimEnd_eq_iff {cs core : List Char} :
    trimEnd cs = core ↔
      ∃ after, cs = core ++ after ∧ (∀ c ∈ after, isBlank c = true) ∧
        ∀ c ∈ core.getLast?, isBlank c = false := by
  rw [trimEnd, List.reverse_eq_iff, dropWhile_isBlank_eq_iff, List.head?_reverse]
  constructor
  · rintro ⟨before, hcs, hbefore, hcore⟩
    refine ⟨before.reverse, ?_, fun c hc => hbefore c (List.mem_reverse.mp hc), hcore⟩
    rw [← List.reverse_reverse cs, hcs, List.reverse_append, List.reverse_reverse]
  · rintro ⟨after, rfl, hafter, hcore⟩
    exact ⟨after.reverse, List.reverse_append, fun c hc => hafter c (List.mem_reverse.mp hc), hcore⟩

/-- What trimming leaves of a text is the part that begins and ends with no blank and has only
blanks around it. -/
theorem trimChars_eq_iff {cs core : List Char} :
    trimChars cs = core ↔
      ∃ before after, cs = before ++ core ++ after ∧ (∀ c ∈ before, isBlank c = true) ∧
        (∀ c ∈ after, isBlank c = true) ∧ (∀ c ∈ core.head?, isBlank c = false) ∧
        ∀ c ∈ core.getLast?, isBlank c = false := by
  rw [trimChars, trimEnd_eq_iff]
  constructor
  · rintro ⟨after, hdropped, hafter, hlast⟩
    obtain ⟨before, rfl, hbefore, hfirst⟩ := dropWhile_isBlank_eq_iff.mp hdropped
    refine ⟨before, after, (List.append_assoc ..).symm, hbefore, hafter, ?_, hlast⟩
    cases core with
    | nil => simp
    | cons c core => exact hfirst
  · rintro ⟨before, after, rfl, hbefore, hafter, hfirst, hlast⟩
    cases core with
    | nil =>
      -- Of blanks alone nothing is left, from whichever end they are removed.
      refine ⟨[], dropWhile_isBlank_eq_iff.mpr ⟨before ++ after, by simp, ?_, by simp⟩, by simp,
        hlast⟩
      intro c hc
      exact (List.mem_append.mp hc).elim (hbefore c) (hafter c)
    | cons c core =>
      refine ⟨after, dropWhile_isBlank_eq_iff.mpr ⟨before, ?_, hbefore, hfirst⟩, hafter, hlast⟩
      rw [List.append_assoc]

/-! ## Texts with blanks around them -/

/-- The text is the core with nothing but blanks around it. -/
def Padded (core text : List Char) : Prop :=
  ∃ before after, text = before ++ core ++ after ∧ (∀ c ∈ before, isBlank c = true) ∧
    ∀ c ∈ after, isBlank c = true

theorem padded_trimChars (text : List Char) : Padded (trimChars text) text := by
  obtain ⟨before, after, htext, hbefore, hafter, -, -⟩ :=
    trimChars_eq_iff.mp (Eq.refl (trimChars text))
  exact ⟨before, after, htext, hbefore, hafter⟩

/-- What has no blank in it is all that trimming leaves of a text that it is the core of. -/
theorem Padded.trimChars_eq {core text : List Char} (h : Padded core text)
    (hcore : ∀ c ∈ core, isBlank c = false) : trimChars text = core := by
  obtain ⟨before, after, htext, hbefore, hafter⟩ := h
  exact trimChars_eq_iff.mpr ⟨before, after, htext, hbefore, hafter,
    fun c hc => hcore c (List.mem_of_mem_head? hc), fun c hc => hcore c (List.mem_of_getLast? hc)⟩

end Text
end CutsceneCatalog
