import CutsceneCatalog.Implementation
import CutsceneCatalog.Proofs.TextLines
import Mathlib.Data.List.Forall2
import Mathlib.Data.List.TakeWhile

/-!
# Code texts line by line

The code of an instruction is made ready by replacing words in the whole text: line breaks by line
feeds, and then each line feed with an indentation behind it by the line feed alone.  What comes of
it is said line by line.  Of the lines of a code, those are kept that are left when the empty ones
in front are gone (`keptLines`), and the indentation of the first of them is taken from every line
that has it (`outdentLines`).  `implementationText_lineByLine` is the main statement: the code made
ready is these lines, joined with line feeds.

The replacement takes the indentation only where a line feed stands before it.  So the first line is
cut apart from it, and cutting it is the same as putting a line feed in front of the text and
replacing there as well (`cons_outdent`); after that, all lines are alike.
-/

namespace CutsceneCatalog

open Text

/-! ## Indentations -/

theorem eq_replicate_indentation_append (cs : List Char) :
    ∃ rest, cs = List.replicate (indentation cs) ' ' ++ rest ∧ rest.head? ≠ some ' ' := by
  have hspaces : cs.takeWhile (· == ' ') = List.replicate (indentation cs) ' ' :=
    List.eq_replicate_iff.mpr ⟨rfl, fun c hc => by simpa using List.mem_takeWhile_imp hc⟩
  refine ⟨cs.dropWhile (· == ' '), ?_, ?_⟩
  · rw [← hspaces, List.takeWhile_append_dropWhile]
  · intro hhead
    have hfirst := List.head?_dropWhile_not (· == ' ') cs
    rw [hhead] at hfirst
    exact absurd hfirst (by decide)

theorem indentation_replicate_append (k : Nat) {rest : List Char} (h : rest.head? ≠ some ' ') :
    indentation (List.replicate k ' ' ++ rest) = k := by
  have hrest : rest.takeWhile (· == ' ') = [] := by
    cases rest with
    | nil => rfl
    | cons c rest =>
      have hc : c ≠ ' ' := fun heq => h (heq ▸ rfl)
      rw [List.takeWhile_cons, beq_false_of_ne hc]
      rfl
  have hspaces : ∀ c ∈ List.replicate k ' ', (c == ' ') = true := fun c hc => by
    rw [List.eq_of_mem_replicate hc]
    rfl
  rw [indentation, List.takeWhile_append_of_pos hspaces, hrest, List.append_nil,
    List.length_replicate]

/-- What does not go on with a space does not add to an indentation. -/
theorem indentation_append (line : List Char) {rest : List Char} (h : rest.head? ≠ some ' ') :
    indentation (line ++ rest) = indentation line := by
  obtain ⟨text, hline, htext⟩ := eq_replicate_indentation_append line
  have hhead : (text ++ rest).head? ≠ some ' ' := by
    cases text with
    | nil => exact h
    | cons c text => exact htext
  have happend := indentation_replicate_append (indentation line) hhead
  rwa [← List.append_assoc, ← hline] at happend

theorem replicate_indentation_prefix (cs : List Char) :
    List.replicate (indentation cs) ' ' <+: cs := by
  obtain ⟨rest, hcs, -⟩ := eq_replicate_indentation_append cs
  exact ⟨rest, hcs.symm⟩

theorem replicate_prefix_append_iff (k : Nat) (line : List Char) {rest : List Char}
    (h : rest.head? ≠ some ' ') :
    List.replicate k ' ' <+: line ++ rest ↔ List.replicate k ' ' <+: line := by
  constructor
  · intro hspaces
    rcases List.prefix_or_prefix_of_prefix hspaces (List.prefix_append line rest) with
      hshort | ⟨more, hmore⟩
    · exact hshort
    · cases more with
      | nil =>
        rw [List.append_nil] at hmore
        exact hmore ▸ List.prefix_rfl
      | cons c more =>
        -- The spaces would go on behind the line.
        have hc : c = ' ' := by
          have hmem : c ∈ List.replicate k ' ' := by
            rw [← hmore]
            exact List.mem_append_right line List.mem_cons_self
          exact List.eq_of_mem_replicate hmem
        rw [← hmore, List.prefix_append_right_inj] at hspaces
        obtain ⟨after, hafter⟩ := hspaces
        rw [← hafter, hc] at h
        exact absurd rfl h
  · exact fun hline => hline.trans (List.prefix_append line rest)

/-! ## Lines without an indentation -/

/-- The line without `k` spaces in front, if it begins with so many. -/
def outdentLine (k : Nat) (line : List Char) : List Char :=
  if List.replicate k ' ' <+: line then line.drop k else line

/-- The lines without the indentation of the first, as far as they have it. -/
def outdentLines (ls : List (List Char)) : List (List Char) :=
  ls.map (outdentLine (indentation (ls.headD [])))

/-- The lines of a code without the empty ones in front. -/
def keptLines (code : List Char) : List (List Char) := (lines code).dropWhile (· == [])

@[simp] theorem outdentLine_replicate_append (k : Nat) (rest : List Char) :
    outdentLine k (List.replicate k ' ' ++ rest) = rest := by
  rw [outdentLine, if_pos (List.prefix_append _ rest), List.drop_left' List.length_replicate]

@[simp] theorem outdentLine_zero (line : List Char) : outdentLine 0 line = line := by
  have h := outdentLine_replicate_append 0 line
  rwa [List.replicate_zero, List.nil_append] at h

/-- A line loses `k` spaces or nothing. -/
theorem outdentLine_cases (k : Nat) (line : List Char) :
    line = outdentLine k line ∨ line = List.replicate k ' ' ++ outdentLine k line := by
  by_cases h : List.replicate k ' ' <+: line
  · obtain ⟨rest, rfl⟩ := h
    rw [outdentLine_replicate_append]
    exact .inr rfl
  · rw [outdentLine, if_neg h]
    exact .inl rfl

theorem Text.Unbroken.outdentLine {line : List Char} (h : Unbroken line) (k : Nat) :
    Unbroken (outdentLine k line) := by
  intro c hc
  apply h c
  rcases outdentLine_cases k line with hkept | htaken
  · rwa [hkept]
  · rw [htaken]
    exact List.mem_append_right _ hc

/-! ## Replacing an indentation behind a line feed -/

/-- Cutting the indentation of the first line is replacing it behind a line feed. -/
theorem cons_outdent {k : Nat} {cs : List Char} (h : List.replicate k ' ' <+: cs) :
    '\n' :: outdent k cs = replaceWord '\n' (List.replicate k ' ') ['\n'] ('\n' :: cs) := by
  obtain ⟨rest, rfl⟩ := h
  rw [outdent, replaceWord_word_append, List.drop_left' List.length_replicate]
  rfl

theorem replaceWord_line_append (k : Nat) {line : List Char} (hline : '\n' ∉ line)
    {rest : List Char} (hrest : rest.head? ≠ some ' ') :
    replaceWord '\n' (List.replicate k ' ') ['\n'] ('\n' :: (line ++ rest)) =
      '\n' :: (outdentLine k line ++ replaceWord '\n' (List.replicate k ' ') ['\n'] rest) := by
  by_cases h : List.replicate k ' ' <+: line
  · obtain ⟨text, rfl⟩ := h
    have htext : '\n' ∉ text := fun hmem => hline (List.mem_append_right _ hmem)
    rw [List.append_assoc, replaceWord_word_append, replaceWord_append_of_not_mem htext,
      outdentLine_replicate_append]
    rfl
  · have hword : ¬ '\n' :: List.replicate k ' ' <+: '\n' :: (line ++ rest) := by
      rw [List.cons_prefix_cons, replicate_prefix_append_iff k line hrest]
      exact fun hprefix => h hprefix.2
    rw [replaceWord_cons_of_no_match hword, replaceWord_append_of_not_mem hline, outdentLine,
      if_neg h]

theorem replaceWord_join (k : Nat) {ls : List (List Char)} (hne : ls ≠ [])
    (h : ∀ line ∈ ls, Unbroken line) :
    replaceWord '\n' (List.replicate k ' ') ['\n'] ('\n' :: join '\n' ls) =
      '\n' :: join '\n' (ls.map (outdentLine k)) := by
  induction ls with
  | nil => exact absurd rfl hne
  | cons line more ih =>
    have hline := (h line List.mem_cons_self).not_mem
    by_cases hmore : more = []
    · subst hmore
      have hlast := replaceWord_line_append k hline (show [].head? ≠ some ' ' by simp)
      rwa [List.append_nil, replaceWord_nil, List.append_nil] at hlast
    · have hmapped : more.map (outdentLine k) ≠ [] :=
        fun hnil => hmore (List.map_eq_nil_iff.mp hnil)
      rw [join_cons hmore, replaceWord_line_append k hline (by simp),
        ih hmore fun l hl => h l (List.mem_cons_of_mem line hl), List.map_cons, join_cons hmapped]

/-! ## The code as a whole -/

theorem dropWhile_join {ls : List (List Char)} (h : ∀ line ∈ ls, Unbroken line) :
    (join '\n' ls).dropWhile (· == '\n') = join '\n' (ls.dropWhile (· == [])) := by
  induction ls with
  | nil => rfl
  | cons line more ih =>
    have hmore := ih fun l hl => h l (List.mem_cons_of_mem line hl)
    cases line with
    | nil =>
      rw [List.dropWhile_cons_of_pos (by rfl), ← hmore]
      cases more with
      | nil => rfl
      | cons next others => rfl
    | cons c line =>
      -- The first line is not empty, so its first character ends the search on both sides.
      have hc : (c == '\n') = false := beq_false_of_ne (h (c :: line) List.mem_cons_self c
        List.mem_cons_self).2
      obtain ⟨rest, hrest⟩ : ∃ rest, join '\n' ((c :: line) :: more) = c :: rest := by
        cases more with
        | nil => exact ⟨line, rfl⟩
        | cons next others => exact ⟨line ++ '\n' :: join '\n' (next :: others), rfl⟩
      rw [List.dropWhile_cons_of_neg (by simp), hrest,
        List.dropWhile_cons_of_neg (by simp [hc])]

theorem unbroken_of_mem_keptLines {code line : List Char} (h : line ∈ keptLines code) :
    Unbroken line :=
  unbroken_of_mem_lines ((List.dropWhile_sublist _).subset h)

theorem unbroken_of_mem_outdentLines {code line : List Char}
    (h : line ∈ outdentLines (keptLines code)) : Unbroken line := by
  obtain ⟨kept, hkept, rfl⟩ := List.mem_map.mp h
  exact (unbroken_of_mem_keptLines hkept).outdentLine _

/-- The code made ready is its lines without the empty ones in front and without their
indentation, joined. -/
theorem implementationChars_eq_join (code : List Char) :
    implementationChars code = join '\n' (outdentLines (keptLines code)) := by
  have hbody : (unifyBreaks code).dropWhile (· == '\n') = join '\n' (keptLines code) := by
    rw [unifyBreaks_eq_join, dropWhile_join fun line hline => unbroken_of_mem_lines hline]
    rfl
  have hunbroken : ∀ line ∈ keptLines code, Unbroken line := fun line hline =>
    unbroken_of_mem_keptLines hline
  rw [implementationChars, hbody]
  generalize keptLines code = kept at hunbroken
  cases kept with
  | nil => exact replaceWord_nil
  | cons first more =>
    have hindent : indentation (join '\n' (first :: more)) = indentation first := by
      cases more with
      | nil => rfl
      | cons next others => exact indentation_append first (by simp)
    have hprefix := replicate_indentation_prefix (join '\n' (first :: more))
    have hcons := cons_outdent hprefix
    rw [hindent] at hcons ⊢
    rw [replaceWord_join _ (List.cons_ne_nil first more) hunbroken] at hcons
    exact (List.cons.inj hcons).2

theorem lines_implementationChars {code : List Char} (h : keptLines code ≠ []) :
    lines (implementationChars code) = outdentLines (keptLines code) := by
  have hne : outdentLines (keptLines code) ≠ [] := fun hnil => h (List.map_eq_nil_iff.mp hnil)
  rw [implementationChars_eq_join, lines_join hne fun line hline =>
    unbroken_of_mem_outdentLines hline]

theorem not_mem_implementationChars (code : List Char) : '\r' ∉ implementationChars code := by
  intro hmem
  rw [implementationChars_eq_join] at hmem
  rcases mem_join hmem with hfeed | ⟨line, hline, hc⟩
  · exact absurd hfeed (by decide)
  · exact (unbroken_of_mem_outdentLines hline '\r' hc).1 rfl

/-- Only empty lines are lost, and only in front. -/
theorem exists_lines_eq_append (code : List Char) :
    ∃ empty, lines code = empty ++ keptLines code ∧ (∀ line ∈ empty, line = []) ∧
      (keptLines code).head? ≠ some [] := by
  refine ⟨(lines code).takeWhile (· == []), ?_, ?_, ?_⟩
  · exact List.takeWhile_append_dropWhile.symm
  · intro line hline
    have hempty := List.mem_takeWhile_imp hline
    simpa using hempty
  · intro hhead
    have hfirst := List.head?_dropWhile_not (· == []) (lines code)
    rw [← keptLines, hhead] at hfirst
    exact absurd hfirst (by decide)

/-- A code and the code made ready, line by line. -/
structure ReadyByLine (code ready : List Char) : Prop where
  /-- The kept lines without their indentation are joined with line feeds. -/
  joined : ready = join '\n' (outdentLines (keptLines code))
  noReturn : '\r' ∉ ready
  /-- The lines that are not kept are empty, and the first that is kept is not. -/
  lost : ∃ empty, lines code = empty ++ keptLines code ∧ (∀ line ∈ empty, line = []) ∧
    (keptLines code).head? ≠ some []
  /-- Each line left is a kept line, with nothing taken from it but the indentation of the first
  one, as a whole or not at all. -/
  each : keptLines code ≠ [] → List.Forall₂
    (fun line out => line = out ∨
      line = List.replicate (indentation ((keptLines code).headD [])) ' ' ++ out)
    (keptLines code) (lines ready)

/-- The code made ready is its lines without the empty ones in front, each without the indentation
of the first of them if it has it; and codes with the same lines are made ready alike, whatever line
breaks they have. -/
theorem implementationText_lineByLine (code : String) :
    ReadyByLine code.toList (implementationText code).toList ∧
      ∀ (other : String) (ls : List (List Char)), SplitsInto code.toList ls →
        SplitsInto other.toList ls → implementationText other = implementationText code := by
  have hready : (implementationText code).toList = implementationChars code.toList := by
    rw [implementationText, String.toList_ofList]
  constructor
  · rw [hready]
    refine ⟨implementationChars_eq_join _, not_mem_implementationChars _,
      exists_lines_eq_append _, ?_⟩
    intro hne
    rw [lines_implementationChars hne, outdentLines, List.forall₂_map_right_iff]
    exact List.forall₂_same.mpr fun line _ => outdentLine_cases _ line
  · intro other ls hcode hother
    have hlines : lines other.toList = lines code.toList :=
      (lines_eq_iff.mpr hother).trans (lines_eq_iff.mpr hcode).symm
    rw [implementationText, implementationText, implementationChars_eq_join,
      implementationChars_eq_join, keptLines, keptLines, hlines]

/-- Deeper lines keep the difference, and a line that is indented less is left alone. -/
example : join '\n' (outdentLines (keptLines "\r\n\n  if x:\r    y()\r\n z()".toList)) =
    "if x:\n  y()\n z()".toList := by
  decide

end CutsceneCatalog
