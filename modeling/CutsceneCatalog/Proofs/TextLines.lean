import CutsceneCatalog.Text.Lines
import CutsceneCatalog.Text.Split
import CutsceneCatalog.Text.Word
import Mathlib.Data.List.Basic

/-!
# Words and lines of a text

Two ways to look at a text.  As a whole, it has words, which are replaced from left to right; as a
list of lines, it is split at its line breaks.  `Text.lines` are the lines of a text, and
`Text.SplitsInto` says what they are, one constructor for each line break, so that no text has two
readings (`Text.lines_eq_iff`).

Unifying the line breaks is where the two meet.  It is the same as two replacements
(`Text.unifyBreaks_eq_replaceWord`), and it joins the lines with line feeds
(`Text.unifyBreaks_eq_join`).
-/

namespace CutsceneCatalog
namespace Text

/-! ## Words -/

section

variable {first c : Char} {others replacement : List Char}

theorem afterWord?_eq_none_iff {word cs : List Char} :
    afterWord? word cs = none ↔ ¬word <+: cs := by
  rw [Option.eq_none_iff_forall_ne_some]
  constructor
  · rintro h ⟨rest, rfl⟩
    exact h rest (afterWord?_eq_some_iff.mpr rfl)
  · intro h rest hrest
    exact h ⟨rest, (afterWord?_eq_some_iff.mp hrest).symm⟩

@[simp] theorem replaceWord_nil : replaceWord first others replacement [] = [] := by
  rw [replaceWord]
  rfl

theorem replaceWord_word_append (rest : List Char) :
    replaceWord first others replacement (first :: (others ++ rest)) =
      replacement ++ replaceWord first others replacement rest := by
  have hfound : afterWord? (first :: others) (first :: (others ++ rest)) = some rest :=
    afterWord?_eq_some_iff.mpr rfl
  rw [replaceWord]
  split
  · next after hafter =>
    obtain rfl := Option.some.inj (hafter.symm.trans hfound)
    rfl
  · next hnone => exact absurd (hnone.symm.trans hfound) (by simp)

theorem replaceWord_cons_of_no_match {rest : List Char} (h : ¬first :: others <+: c :: rest) :
    replaceWord first others replacement (c :: rest) =
      c :: replaceWord first others replacement rest := by
  have hnone : afterWord? (first :: others) (c :: rest) = none := afterWord?_eq_none_iff.mpr h
  rw [replaceWord]
  split
  · next after hafter => exact absurd (hnone.symm.trans hafter) (by simp)
  · rfl

theorem replaceWord_cons_of_ne (h : c ≠ first) (rest : List Char) :
    replaceWord first others replacement (c :: rest) =
      c :: replaceWord first others replacement rest := by
  apply replaceWord_cons_of_no_match
  rw [List.cons_prefix_cons]
  exact fun hprefix => h hprefix.1.symm

/-- What has none of the first characters of a word is left alone. -/
theorem replaceWord_append_of_not_mem {before : List Char} (h : first ∉ before)
    (rest : List Char) :
    replaceWord first others replacement (before ++ rest) =
      before ++ replaceWord first others replacement rest := by
  induction before with
  | nil => rfl
  | cons c before ih =>
    have hc : c ≠ first := fun heq => h (heq ▸ List.mem_cons_self)
    have hbefore : first ∉ before := fun hmem => h (List.mem_cons_of_mem c hmem)
    rw [List.cons_append, replaceWord_cons_of_ne hc, ih hbefore, List.cons_append]

theorem length_replaceWord_le (h : replacement.length ≤ others.length + 1) (cs : List Char) :
    (replaceWord first others replacement cs).length ≤ cs.length := by
  fun_induction replaceWord first others replacement cs with
  | case1 cs rest hfound ih =>
    have hlength := congrArg List.length (afterWord?_eq_some_iff.mp hfound)
    simp only [List.length_append, List.length_cons] at hlength ⊢
    omega
  | case2 => exact Nat.le_refl _
  | case3 c rest hnone ih =>
    simp only [List.length_cons]
    omega

end

/-- Line breaks are unified by two replacements: first of the pairs, and then of the carriage
returns that are left. -/
theorem unifyBreaks_eq_replaceWord (cs : List Char) :
    unifyBreaks cs = replaceWord '\r' [] ['\n'] (replaceWord '\r' ['\n'] ['\n'] cs) := by
  fun_induction unifyBreaks cs with
  | case1 => rw [replaceWord_nil, replaceWord_nil]
  | case2 rest ih =>
    have hpair : replaceWord '\r' ['\n'] ['\n'] ('\r' :: '\n' :: rest) =
        '\n' :: replaceWord '\r' ['\n'] ['\n'] rest := replaceWord_word_append rest
    have hfeed : '\n' ≠ '\r' := by decide
    rw [ih, hpair, replaceWord_cons_of_ne hfeed]
  | case3 c rest hnotPair ih =>
    have hkept : replaceWord '\r' ['\n'] ['\n'] (c :: rest) =
        c :: replaceWord '\r' ['\n'] ['\n'] rest := by
      apply replaceWord_cons_of_no_match
      rintro ⟨after, hafter⟩
      obtain ⟨rfl, rfl⟩ := List.cons.inj hafter
      exact hnotPair after rfl rfl
    rw [hkept, ih]
    by_cases hc : c = '\r'
    · have hreturn (after : List Char) : replaceWord '\r' [] ['\n'] ('\r' :: after) =
          '\n' :: replaceWord '\r' [] ['\n'] after := replaceWord_word_append after
      rw [hc, if_pos rfl, hreturn]
    · rw [if_neg hc, replaceWord_cons_of_ne hc]

/-! ## Pieces -/

theorem pieces_cons (separator c : Char) (rest : List Char) :
    pieces separator (c :: rest) =
      if c = separator then [] :: pieces separator rest
      else (pieces separator rest).modifyHead (c :: ·) := by
  rw [pieces]
  split
  · next h => exact absurd h (pieces_ne_nil separator rest)
  · next piece more h => rw [h, List.modifyHead_cons]

theorem join_cons {separator : Char} {piece : List Char} {more : List (List Char)}
    (h : more ≠ []) :
    join separator (piece :: more) = piece ++ separator :: join separator more := by
  cases more with
  | nil => exact absurd rfl h
  | cons next others => rfl

/-- A separator ends the pieces before it and begins the pieces behind it. -/
theorem pieces_append_separator (separator : Char) (front back : List Char) :
    pieces separator (front ++ separator :: back) =
      pieces separator front ++ pieces separator back := by
  induction front with
  | nil =>
    rw [List.nil_append, pieces_cons, if_pos rfl]
    rfl
  | cons c more ih =>
    rw [List.cons_append, pieces_cons, pieces_cons, ih]
    by_cases hc : c = separator
    · rw [if_pos hc, if_pos hc, List.cons_append]
    · obtain ⟨piece, others, hpieces⟩ := List.exists_cons_of_ne_nil (pieces_ne_nil separator more)
      rw [if_neg hc, if_neg hc, hpieces, List.cons_append, List.modifyHead_cons,
        List.modifyHead_cons, List.cons_append]

theorem pieces_of_not_mem {separator : Char} {piece : List Char} (h : separator ∉ piece) :
    pieces separator piece = [piece] := by
  induction piece with
  | nil => rfl
  | cons c more ih =>
    rw [List.mem_cons, not_or] at h
    rw [pieces_cons, if_neg fun heq => h.1 heq.symm, ih h.2, List.modifyHead_cons]

theorem not_mem_of_mem_pieces {separator : Char} {piece cs : List Char}
    (h : piece ∈ pieces separator cs) : separator ∉ piece := by
  induction cs generalizing piece with
  | nil =>
    rw [List.mem_singleton.mp h]
    exact List.not_mem_nil
  | cons c rest ih =>
    rw [pieces_cons] at h
    obtain ⟨first, others, hpieces⟩ := List.exists_cons_of_ne_nil (pieces_ne_nil separator rest)
    rw [hpieces] at ih
    rw [hpieces, List.modifyHead_cons] at h
    split at h
    · rcases List.mem_cons.mp h with rfl | hmem
      · exact List.not_mem_nil
      · exact ih hmem
    · next hc =>
      rcases List.mem_cons.mp h with rfl | hmem
      · exact List.not_mem_cons_of_ne_of_not_mem (Ne.symm hc) (ih List.mem_cons_self)
      · exact ih (List.mem_cons_of_mem first hmem)

theorem mem_join_of_mem {separator c : Char} {piece : List Char} {ps : List (List Char)}
    (h : piece ∈ ps) (hc : c ∈ piece) : c ∈ join separator ps := by
  induction ps with
  | nil => exact absurd h List.not_mem_nil
  | cons first others ih =>
    cases others with
    | nil =>
      rw [List.mem_singleton.mp h] at hc
      exact hc
    | cons next more =>
      rcases List.mem_cons.mp h with rfl | hmem
      · exact List.mem_append_left _ hc
      · exact List.mem_append_right _ (List.mem_cons_of_mem _ (ih hmem))

/-- The characters of a piece are characters of the text. -/
theorem mem_of_mem_pieces {separator c : Char} {piece cs : List Char}
    (h : piece ∈ pieces separator cs) (hc : c ∈ piece) : c ∈ cs := by
  have hmem : c ∈ join separator (pieces separator cs) := mem_join_of_mem h hc
  rwa [join_pieces] at hmem

/-- Pieces are found again between their separators. -/
theorem pieces_join {separator : Char} {ps : List (List Char)} (h : ps ≠ [])
    (hps : ∀ piece ∈ ps, separator ∉ piece) : pieces separator (join separator ps) = ps := by
  induction ps with
  | nil => exact absurd rfl h
  | cons piece more ih =>
    rw [List.forall_mem_cons] at hps
    by_cases hmore : more = []
    · rw [hmore]
      exact pieces_of_not_mem hps.1
    · rw [join_cons hmore, pieces_append_separator, pieces_of_not_mem hps.1, ih hmore hps.2,
        List.singleton_append]

theorem mem_join {separator c : Char} {ps : List (List Char)} (h : c ∈ join separator ps) :
    c = separator ∨ ∃ piece ∈ ps, c ∈ piece := by
  induction ps with
  | nil => exact absurd h List.not_mem_nil
  | cons piece more ih =>
    by_cases hmore : more = []
    · subst hmore
      exact .inr ⟨piece, List.mem_cons_self, h⟩
    · rw [join_cons hmore, List.mem_append, List.mem_cons] at h
      rcases h with hpiece | hseparator | hmem
      · exact .inr ⟨piece, List.mem_cons_self, hpiece⟩
      · exact .inl hseparator
      · rcases ih hmem with hseparator | ⟨other, hother, hc⟩
        · exact .inl hseparator
        · exact .inr ⟨other, List.mem_cons_of_mem piece hother, hc⟩

/-! ## Lines -/

/-- The lines of a text; a carriage return and a line feed behind it are one line break. -/
def lines : List Char → List (List Char)
  | [] => [[]]
  | '\r' :: '\n' :: rest => [] :: lines rest
  | c :: rest =>
      if c = '\r' ∨ c = '\n' then [] :: lines rest else (lines rest).modifyHead (c :: ·)

/-- No line break stands in a line. -/
def Unbroken (line : List Char) : Prop := ∀ c ∈ line, c ≠ '\r' ∧ c ≠ '\n'

/-- A text that is split into lines, whichever way each of them ends. -/
inductive SplitsInto : List Char → List (List Char) → Prop
  | last {line : List Char} (unbroken : Unbroken line) : SplitsInto line [line]
  | pair {line rest : List Char} {more : List (List Char)} (unbroken : Unbroken line)
      (later : SplitsInto rest more) : SplitsInto (line ++ '\r' :: '\n' :: rest) (line :: more)
  | carriageReturn {line rest : List Char} {more : List (List Char)} (unbroken : Unbroken line)
      (alone : rest.head? ≠ some '\n') (later : SplitsInto rest more) :
      SplitsInto (line ++ '\r' :: rest) (line :: more)
  | lineFeed {line rest : List Char} {more : List (List Char)} (unbroken : Unbroken line)
      (later : SplitsInto rest more) : SplitsInto (line ++ '\n' :: rest) (line :: more)

theorem Unbroken.nil : Unbroken [] := by
  intro c hc
  exact absurd hc List.not_mem_nil

theorem Unbroken.cons {c : Char} {line : List Char} (hc : c ≠ '\r' ∧ c ≠ '\n')
    (h : Unbroken line) : Unbroken (c :: line) := by
  intro d hd
  rcases List.mem_cons.mp hd with rfl | hmem
  · exact hc
  · exact h d hmem

theorem Unbroken.not_mem {line : List Char} (h : Unbroken line) : '\n' ∉ line :=
  fun hmem => (h '\n' hmem).2 rfl

theorem lines_cons_of_ne {c : Char} (h : c ≠ '\r' ∧ c ≠ '\n') (rest : List Char) :
    lines (c :: rest) = (lines rest).modifyHead (c :: ·) := by
  rw [lines, if_neg (not_or.mpr h)]
  intro _ hc
  exact absurd hc h.1

theorem lines_cons_carriageReturn {rest : List Char} (h : rest.head? ≠ some '\n') :
    lines ('\r' :: rest) = [] :: lines rest := by
  rw [lines, if_pos (.inl rfl)]
  rintro after - rfl
  exact h rfl

theorem lines_append {line : List Char} (h : Unbroken line) (rest : List Char) :
    lines (line ++ rest) = (lines rest).modifyHead (line ++ ·) := by
  induction line with
  | nil => exact (congrFun List.modifyHead_id _).symm
  | cons c line ih =>
    have hc := h c List.mem_cons_self
    have hline : Unbroken line := fun d hd => h d (List.mem_cons_of_mem c hd)
    rw [List.cons_append, lines_cons_of_ne hc, ih hline, List.modifyHead_modifyHead]
    rfl

theorem SplitsInto.cons {c : Char} {rest : List Char} {ls : List (List Char)}
    (hc : c ≠ '\r' ∧ c ≠ '\n') (h : SplitsInto rest ls) :
    SplitsInto (c :: rest) (ls.modifyHead (c :: ·)) := by
  cases h with
  | last unbroken => exact .last (unbroken.cons hc)
  | pair unbroken later => exact .pair (unbroken.cons hc) later
  | carriageReturn unbroken alone later => exact .carriageReturn (unbroken.cons hc) alone later
  | lineFeed unbroken later => exact .lineFeed (unbroken.cons hc) later

theorem splitsInto_lines (cs : List Char) : SplitsInto cs (lines cs) := by
  fun_induction lines cs with
  | case1 => exact .last .nil
  | case2 rest ih => exact .pair .nil ih
  | case3 c rest hpair hbreak ih =>
    rcases hbreak with rfl | rfl
    · refine .carriageReturn .nil ?_ ih
      intro hhead
      obtain ⟨after, rfl⟩ := List.head?_eq_some_iff.mp hhead
      exact hpair after rfl rfl
    · exact .lineFeed .nil ih
  | case4 c rest hpair hbreak ih => exact ih.cons (not_or.mp hbreak)

/-- A text splits into its lines, and into no others. -/
theorem lines_eq_iff {cs : List Char} {ls : List (List Char)} :
    lines cs = ls ↔ SplitsInto cs ls := by
  constructor
  · rintro rfl
    exact splitsInto_lines cs
  · intro h
    induction h with
    | @last line unbroken =>
      have hline := lines_append unbroken []
      rwa [List.append_nil, lines, List.modifyHead_cons, List.append_nil] at hline
    | pair unbroken _ ih =>
      rw [lines_append unbroken, lines, ih, List.modifyHead_cons, List.append_nil]
    | carriageReturn unbroken alone _ ih =>
      rw [lines_append unbroken, lines_cons_carriageReturn alone, ih, List.modifyHead_cons,
        List.append_nil]
    | lineFeed unbroken _ ih =>
      rw [lines_append unbroken, lines, if_pos (.inr rfl), ih, List.modifyHead_cons,
        List.append_nil]
      rintro _ hc
      exact absurd hc (by decide)

theorem SplitsInto.unbroken {cs : List Char} {ls : List (List Char)} (h : SplitsInto cs ls) :
    ∀ line ∈ ls, Unbroken line := by
  induction h with
  | last unbroken =>
    intro line hline
    rwa [List.mem_singleton.mp hline]
  | pair unbroken _ ih => exact List.forall_mem_cons.mpr ⟨unbroken, ih⟩
  | carriageReturn unbroken _ _ ih => exact List.forall_mem_cons.mpr ⟨unbroken, ih⟩
  | lineFeed unbroken _ ih => exact List.forall_mem_cons.mpr ⟨unbroken, ih⟩

theorem unbroken_of_mem_lines {cs line : List Char} (h : line ∈ lines cs) : Unbroken line :=
  (splitsInto_lines cs).unbroken line h

/-- Lines that are joined with line feeds are found again. -/
theorem splitsInto_join {ls : List (List Char)} (hne : ls ≠ [])
    (h : ∀ line ∈ ls, Unbroken line) : SplitsInto (join '\n' ls) ls := by
  induction ls with
  | nil => exact absurd rfl hne
  | cons line more ih =>
    have hline := h line List.mem_cons_self
    by_cases hmore : more = []
    · subst hmore
      exact .last hline
    · rw [join_cons hmore]
      exact .lineFeed hline (ih hmore fun l hl => h l (List.mem_cons_of_mem line hl))

theorem lines_join {ls : List (List Char)} (hne : ls ≠ []) (h : ∀ line ∈ ls, Unbroken line) :
    lines (join '\n' ls) = ls :=
  lines_eq_iff.mpr (splitsInto_join hne h)

/-- Once every line break is a line feed, the lines are the pieces between line feeds. -/
theorem lines_eq_pieces (cs : List Char) : lines cs = pieces '\n' (unifyBreaks cs) := by
  fun_induction lines cs with
  | case1 => rfl
  | case2 rest ih => rw [unifyBreaks, pieces_cons, if_pos rfl, ih]
  | case3 c rest hpair hbreak ih =>
    have hunified : (if c = '\r' then '\n' else c) = '\n' := by
      rcases hbreak with rfl | rfl <;> rfl
    rw [unifyBreaks, hunified, pieces_cons, if_pos rfl, ih]
    exact hpair
  | case4 c rest hpair hbreak ih =>
    obtain ⟨hreturn, hfeed⟩ := not_or.mp hbreak
    rw [unifyBreaks, if_neg hreturn, pieces_cons, if_neg hfeed, ih]
    exact hpair

theorem unifyBreaks_eq_join (cs : List Char) : unifyBreaks cs = join '\n' (lines cs) := by
  rw [lines_eq_pieces, join_pieces]

end Text
end CutsceneCatalog
