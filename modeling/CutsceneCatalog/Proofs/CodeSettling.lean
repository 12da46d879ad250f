import CutsceneCatalog.Proofs.CodeLines

/-!
# Codes that are settled by one pass

Making a code ready should be done with at once: nothing blank stands in front any more, and making
it ready again changes nothing (`SettledInOnePass`).  It is not always so.  Lines in front are
dropped only if they are empty, before the indentation is measured.  If the first line left is made
of spaces, its indentation is all of it, and an empty line stays in front, which only the next pass
drops (`BeginsBlank`).

`settledInOnePass_iff` is the main statement: this is the only exception, and where it occurs both
parts of the promise fail.  That no space is left in front holds always.
-/

namespace CutsceneCatalog

open Text

/-- No line break and no space stands in front of the code made ready, and making it ready again
changes nothing. -/
def SettledInOnePass (code : String) : Prop :=
  (∀ c ∈ (implementationText code).toList.head?, c ≠ '\n' ∧ c ≠ '\r' ∧ c ≠ ' ') ∧
    implementationText (implementationText code) = implementationText code

/-- The first line of a code that is not empty is made of spaces, and it is not the last. -/
def BeginsBlank (code : List Char) : Prop :=
  ∃ k next more, keptLines code = List.replicate k ' ' :: next :: more

theorem outdentLines_replicate_append (k : Nat) {text : List Char} (h : text.head? ≠ some ' ')
    (more : List (List Char)) :
    outdentLines ((List.replicate k ' ' ++ text) :: more) =
      text :: more.map (outdentLine k) := by
  rw [outdentLines, List.headD_cons, indentation_replicate_append k h, List.map_cons,
    outdentLine_replicate_append]

/-- Lines that begin flush with the margin are the lines of a code that is ready. -/
theorem implementationChars_join_of_flush {c : Char} {text : List Char} {more : List (List Char)}
    (hc : c ≠ ' ') (h : ∀ line ∈ (c :: text) :: more, Unbroken line) :
    implementationChars (join '\n' ((c :: text) :: more)) = join '\n' ((c :: text) :: more) := by
  have hkept : keptLines (join '\n' ((c :: text) :: more)) = (c :: text) :: more := by
    rw [keptLines, lines_join (List.cons_ne_nil _ more) h, List.dropWhile_cons_of_neg (by simp)]
  have hhead : (c :: text).head? ≠ some ' ' := fun heq => hc (Option.some.inj heq)
  have hready : outdentLines ((c :: text) :: more) = (c :: text) :: more.map (outdentLine 0) :=
    outdentLines_replicate_append 0 hhead more
  have hmore : more.map (outdentLine 0) = more := by
    rw [List.map_congr_left fun line _ => outdentLine_zero line, List.map_id']
  rw [implementationChars_eq_join, hkept, hready, hmore]

theorem length_unifyBreaks_le (cs : List Char) : (unifyBreaks cs).length ≤ cs.length := by
  fun_induction unifyBreaks cs with
  | case1 => exact Nat.le_refl 0
  | case2 rest ih =>
    simp only [List.length_cons]
    omega
  | case3 c rest _ ih =>
    simp only [List.length_cons]
    omega

theorem length_implementationChars_le (code : List Char) :
    (implementationChars code).length ≤ code.length := by
  have hunified := length_unifyBreaks_le code
  have hbody := ((unifyBreaks code).dropWhile_sublist (· == '\n')).length_le
  generalize hdef : (unifyBreaks code).dropWhile (· == '\n') = body at hbody
  have hdropped : (body.drop (indentation body)).length ≤ body.length := by
    rw [List.length_drop]
    omega
  have hready : (outdent (indentation body) body).length ≤ (body.drop (indentation body)).length :=
    length_replaceWord_le (by simp) _
  rw [implementationChars, hdef]
  omega

/-- A line feed in front is lost in the next pass. -/
theorem implementationChars_cons_lineFeed (rest : List Char) :
    implementationChars ('\n' :: rest) = implementationChars rest := by
  have hunified : unifyBreaks ('\n' :: rest) = '\n' :: unifyBreaks rest := by
    rw [unifyBreaks, if_neg (by decide)]
    intro _ hreturn
    exact absurd hreturn (by decide)
  rw [implementationChars, hunified, List.dropWhile_cons_of_pos (by rfl), implementationChars]

@[simp] theorem implementationChars_nil : implementationChars [] = [] := replaceWord_nil

/-- A pass settles a code, or the code begins blank and an empty line stays in front. -/
theorem implementationChars_cases (code : List Char) :
    ((∀ c ∈ (implementationChars code).head?, c ≠ '\n' ∧ c ≠ '\r' ∧ c ≠ ' ') ∧
      implementationChars (implementationChars code) = implementationChars code ∧
      ¬BeginsBlank code) ∨
    ∃ rest, implementationChars code = '\n' :: rest ∧ BeginsBlank code := by
  have hready := implementationChars_eq_join code
  have hunbroken : ∀ line ∈ outdentLines (keptLines code), Unbroken line := fun line hline =>
    unbroken_of_mem_outdentLines hline
  cases hkept : keptLines code with
  | nil =>
    have hnone : implementationChars code = [] := by rw [hready, hkept]; rfl
    refine .inl ⟨by simp [hnone], by rw [hnone, implementationChars_nil], ?_⟩
    rintro ⟨k, next, more, hblank⟩
    exact List.cons_ne_nil _ _ (hblank.symm.trans hkept)
  | cons first more =>
    obtain ⟨text, hfirst, htext⟩ := eq_replicate_indentation_append first
    rw [hkept, hfirst, outdentLines_replicate_append _ htext] at hready hunbroken
    cases text with
    | cons c text =>
      have hc : c ≠ ' ' := fun heq => htext (heq ▸ rfl)
      have hbreak := hunbroken _ List.mem_cons_self c List.mem_cons_self
      have hhead : (implementationChars code).head? = some c := by
        rw [hready]
        cases more with
        | nil => rfl
        | cons next others => rfl
      refine .inl ⟨?_, ?_, ?_⟩
      · rw [hhead]
        rintro _ ⟨⟩
        exact ⟨hbreak.2, hbreak.1, hc⟩
      · rw [hready]
        exact implementationChars_join_of_flush hc hunbroken
      · rintro ⟨k, next, others, hblank⟩
        -- The first line has a character that is no space.
        have hmem : c ∈ List.replicate k ' ' := by
          have hline := (List.cons.inj (hblank.symm.trans hkept)).1
          rw [hline, hfirst]
          exact List.mem_append_right _ List.mem_cons_self
        exact hc (List.eq_of_mem_replicate hmem)
    | nil =>
      rw [List.append_nil] at hfirst
      cases more with
      | nil =>
        have hnone : implementationChars code = [] := hready
        refine .inl ⟨by simp [hnone], by rw [hnone, implementationChars_nil], ?_⟩
        rintro ⟨k, next, more, hblank⟩
        exact List.cons_ne_nil _ _ (List.cons.inj (hblank.symm.trans hkept)).2
      | cons next others =>
        have hblank : BeginsBlank code := ⟨indentation first, next, others, by rw [hkept, ← hfirst]⟩
        exact .inr ⟨_, hready, hblank⟩

/-- A code is settled by one pass unless it begins blank.  If it does, a line feed stands in front
of the code made ready, and the next pass makes it shorter; but a space never stands in front. -/
theorem settledInOnePass_iff (code : String) :
    (SettledInOnePass code ↔ ¬BeginsBlank code.toList) ∧
      (implementationText code).toList.head? ≠ some ' ' ∧
      (BeginsBlank code.toList → (implementationText code).toList.head? = some '\n' ∧
        (implementationText (implementationText code)).length <
          (implementationText code).length) := by
  have hready (text : String) : (implementationText text).toList =
      implementationChars text.toList := by
    rw [implementationText, String.toList_ofList]
  have hagain : implementationText (implementationText code) = implementationText code ↔
      implementationChars (implementationChars code.toList) = implementationChars code.toList := by
    rw [← String.toList_inj, hready, hready]
  simp only [SettledInOnePass, hagain, hready, ← String.length_toList]
  rcases implementationChars_cases code.toList with
    ⟨hhead, hsame, hfilled⟩ | ⟨rest, hrest, hblank⟩
  · refine ⟨iff_of_true ⟨hhead, hsame⟩ hfilled, ?_, fun h => absurd h hfilled⟩
    exact fun hspace => (hhead ' ' hspace).2.2 rfl
  · rw [hrest]
    have hshorter : (implementationChars ('\n' :: rest)).length < ('\n' :: rest).length := by
      rw [implementationChars_cons_lineFeed]
      exact Nat.lt_succ_of_le (length_implementationChars_le rest)
    refine ⟨iff_of_false ?_ (not_not.mpr hblank), by simp, fun _ => ⟨rfl, hshorter⟩⟩
    exact fun hsettled => (hsettled.1 '\n' rfl).1 rfl

/-- A line of one space in front of a text becomes an empty line, and that is still there. -/
theorem not_settledInOnePass_spaceLine : ¬SettledInOnePass " \nx" := by
  have hready : implementationText " \nx" = "\nx" := by
    rw [implementationText, implementationChars_eq_join]
    rfl
  rintro ⟨hhead, -⟩
  rw [hready] at hhead
  exact (hhead '\n' rfl).1 rfl

end CutsceneCatalog
