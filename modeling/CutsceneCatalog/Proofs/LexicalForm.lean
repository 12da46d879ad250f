import CutsceneCatalog.Location
import Mathlib.Logic.Relation

/-!
# Lexical normal forms

What a sequence of components comes to when nothing but the components themselves is looked at.  An
empty component and a point lead nowhere, nor does a name with the way back behind it
(`Location.Idle`), and at the root the way back stays where it is.  `Location.Simplifies` takes such
components away, in whatever order; a normal form is what is left when there are names only.

`Location.collapse` reads the components from left to right and keeps a stack of names.  No
simplification changes its result (`Location.collapse_of_simplifies`), and its result is reached by
simplifications (`Location.simplifies_collapse`).  So every sequence of components has exactly one
normal form, the one that the stack holds at the end (`Location.isNormalForm_iff`).
-/

namespace CutsceneCatalog

/-- The characters of a part. -/
def Part.chars (part : Part) : List Char := part.text.toList

namespace Location

/-- A component that is the name of something in a folder. -/
structure IsName (component : List Char) : Prop where
  ne_nil : component ≠ []
  ne_point : component ≠ ['.']
  ne_points : component ≠ ['.', '.']
  no_slash : '/' ∉ component

/-- Components that lead nowhere. -/
inductive Idle : List (List Char) → Prop
  | empty : Idle [[]]
  | point : Idle [['.']]
  | back {name : List Char} (h : IsName name) : Idle [name, ['.', '.']]

/-- One step towards the normal form, in a sequence of components that starts at the root. -/
inductive Simplifies : List (List Char) → List (List Char) → Prop
  | idle {before added after : List (List Char)} (h : Idle added) :
      Simplifies (before ++ added ++ after) (before ++ after)
  | top {after : List (List Char)} : Simplifies (['.', '.'] :: after) after

/-- The names that components come to when all that can be simplified is. -/
structure IsNormalForm (components names : List (List Char)) : Prop where
  reached : Relation.ReflTransGen Simplifies components names
  proper : ∀ name ∈ names, IsName name

/-- The components that lead somewhere. -/
def partsIn (components : List (List Char)) : List Part :=
  components.filterMap fun piece => Part.ofString? (String.ofList piece)

/-! ## Components and parts -/

theorem isPart_ofList (component : List Char) :
    isPart (String.ofList component) = true ↔
      component ≠ [] ∧ component ≠ ['.'] ∧ '/' ∉ component := by
  have hempty : String.ofList component ≠ "" ↔ component ≠ [] := by
    rw [ne_eq, String.ofList_eq_empty_iff]
  have hpoint : String.ofList component ≠ "." ↔ component ≠ ['.'] := by
    rw [ne_eq, show "." = String.ofList ['.'] from rfl, String.ofList_inj]
  simp only [isPart, Bool.and_eq_true, bne_iff_ne, Bool.not_eq_true', hempty, hpoint,
    String.toList_ofList, and_assoc, List.contains_eq_mem, decide_eq_false_iff_not]

theorem partsIn_append (xs ys : List (List Char)) :
    partsIn (xs ++ ys) = partsIn xs ++ partsIn ys := List.filterMap_append

theorem partsIn_cons (c : List Char) (more : List (List Char)) :
    partsIn (c :: more) = partsIn [c] ++ partsIn more := partsIn_append [c] more

theorem partsIn_empty : partsIn [[]] = [] := by decide

theorem partsIn_point : partsIn [['.']] = [] := by decide

theorem partsIn_points : partsIn [['.', '.']] = [Part.up] := by decide

/-- Parts are read back from their characters. -/
theorem partsIn_chars (parts : List Part) : partsIn (parts.map Part.chars) = parts := by
  have hread (part : Part) : partsIn [part.chars] = [part] := by
    simp [partsIn, Part.chars, Part.ofString?, part.proper]
  induction parts with
  | nil => rfl
  | cons part more ih => rw [List.map_cons, partsIn_cons, hread, ih, List.singleton_append]

theorem chars_eq_points_iff (part : Part) : part.chars = ['.', '.'] ↔ part = .up := by
  constructor
  · intro h
    obtain ⟨text, proper⟩ := part
    obtain rfl : text = ".." := String.toList_injective h
    rfl
  · rintro rfl
    rfl

theorem chars_proper (part : Part) :
    part.chars ≠ [] ∧ part.chars ≠ ['.'] ∧ '/' ∉ part.chars := by
  rw [← isPart_ofList, Part.chars, String.ofList_toList]
  exact part.proper

theorem isName_chars_iff (part : Part) : IsName part.chars ↔ part ≠ .up := by
  obtain ⟨hnil, hpoint, hslash⟩ := chars_proper part
  rw [ne_eq, ← chars_eq_points_iff]
  exact ⟨IsName.ne_points, fun h => ⟨hnil, hpoint, h, hslash⟩⟩

/-- A component without a slash is empty, or a point, or what a part is written with. -/
theorem component_cases {component : List Char} (h : '/' ∉ component) :
    component = [] ∨ component = ['.'] ∨ ∃ part : Part, component = part.chars := by
  by_cases hnil : component = []
  · exact .inl hnil
  by_cases hpoint : component = ['.']
  · exact .inr (.inl hpoint)
  have hproper := (isPart_ofList component).mpr ⟨hnil, hpoint, h⟩
  exact .inr (.inr ⟨⟨String.ofList component, hproper⟩, String.toList_ofList.symm⟩)

theorem IsName.exists_part {component : List Char} (h : IsName component) :
    ∃ part : Part, component = part.chars ∧ part ≠ .up := by
  obtain rfl | rfl | ⟨part, rfl⟩ := component_cases h.no_slash
  · exact absurd rfl h.ne_nil
  · exact absurd rfl h.ne_point
  · exact ⟨part, rfl, (isName_chars_iff part).mp h⟩

/-- Names are what parts are written with that do not lead back. -/
theorem exists_parts_of_isName {names : List (List Char)} (h : ∀ name ∈ names, IsName name) :
    ∃ parts : List Part, names = parts.map Part.chars ∧ ∀ part ∈ parts, part ≠ .up := by
  induction names with
  | nil => exact ⟨[], rfl, fun _ hmem => absurd hmem List.not_mem_nil⟩
  | cons name more ih =>
    rw [List.forall_mem_cons] at h
    obtain ⟨part, rfl, hpart⟩ := h.1.exists_part
    obtain ⟨parts, rfl, hparts⟩ := ih h.2
    exact ⟨part :: parts, rfl, List.forall_mem_cons.mpr ⟨hpart, hparts⟩⟩

/-! ## The stack of names -/

@[simp] theorem follow_up (passed : List Part) : follow passed .up = passed.tail := if_pos rfl

theorem follow_of_ne_up {part : Part} (h : part ≠ .up) (passed : List Part) :
    follow passed part = part :: passed := if_neg h

/-- Idle components leave the stack as it is. -/
theorem foldl_follow_idle {added : List (List Char)} (h : Idle added) (passed : List Part) :
    (partsIn added).foldl follow passed = passed := by
  cases h with
  | empty => rw [partsIn_empty, List.foldl_nil]
  | point => rw [partsIn_point, List.foldl_nil]
  | back hname =>
    obtain ⟨part, rfl, hpart⟩ := hname.exists_part
    have hparts : partsIn [part.chars, ['.', '.']] = [part, .up] := partsIn_chars [part, .up]
    rw [hparts, List.foldl_cons, List.foldl_cons, List.foldl_nil, follow_of_ne_up hpart,
      follow_up, List.tail_cons]

/-- Idle components can be left out, wherever they stand. -/
theorem collapse_idle {added : List (List Char)} (h : Idle added) (xs ys : List Part) :
    collapse (xs ++ partsIn added ++ ys) = collapse (xs ++ ys) := by
  rw [collapse, collapse, List.foldl_append, List.foldl_append, foldl_follow_idle h,
    ← List.foldl_append]

/-- No simplification changes the names that are left. -/
theorem collapse_of_simplifies {cs ds : List (List Char)} (h : Simplifies cs ds) :
    collapse (partsIn cs) = collapse (partsIn ds) := by
  cases h with
  | idle hidle =>
    rw [partsIn_append, partsIn_append, partsIn_append, collapse_idle hidle]
  | top =>
    rw [partsIn_cons, partsIn_points]
    rfl

theorem collapse_of_reached {cs ds : List (List Char)}
    (h : Relation.ReflTransGen Simplifies cs ds) :
    collapse (partsIn cs) = collapse (partsIn ds) := by
  induction h with
  | refl => rfl
  | tail _ hstep ih => exact ih.trans (collapse_of_simplifies hstep)

/-- Where nothing leads back, nothing is taken back. -/
theorem collapse_of_no_up {parts : List Part} (h : ∀ part ∈ parts, part ≠ .up) :
    collapse parts = parts := by
  have hstack (passed : List Part) : parts.foldl follow passed = parts.reverse ++ passed := by
    induction parts generalizing passed with
    | nil => rfl
    | cons part more ih =>
      rw [List.forall_mem_cons] at h
      rw [List.foldl_cons, follow_of_ne_up h.1, ih h.2, List.reverse_cons, List.append_assoc,
        List.singleton_append]
  rw [collapse, hstack, List.append_nil, List.reverse_reverse]

/-- What holds of all names that are passed holds of all names on the stack. -/
theorem forall_mem_foldl_follow {p : Part → Prop} {passed parts : List Part}
    (hpassed : ∀ part ∈ passed, p part) (hparts : ∀ part ∈ parts, part ≠ .up → p part) :
    ∀ part ∈ parts.foldl follow passed, p part := by
  induction parts generalizing passed with
  | nil => exact hpassed
  | cons next more ih =>
    rw [List.forall_mem_cons] at hparts
    refine ih ?_ hparts.2
    by_cases hnext : next = .up
    · rw [hnext, follow_up]
      exact fun part hpart => hpassed part (List.mem_of_mem_tail hpart)
    · rw [follow_of_ne_up hnext]
      exact List.forall_mem_cons.mpr ⟨hparts.1 hnext, hpassed⟩

theorem forall_mem_collapse {p : Part → Prop} {parts : List Part}
    (h : ∀ part ∈ parts, part ≠ .up → p part) : ∀ part ∈ collapse parts, p part := by
  intro part hpart
  exact forall_mem_foldl_follow (fun _ hmem => absurd hmem List.not_mem_nil) h part
    (List.mem_reverse.mp hpart)

/-- Only names are left. -/
theorem ne_up_of_mem_collapse {parts : List Part} : ∀ part ∈ collapse parts, part ≠ .up :=
  forall_mem_collapse fun _ _ h => h

/-! ## The normal form -/

/-- What the stack holds at the end is reached by simplifications.  The induction is on the
components that are still to be read; in front of them stand the names on the stack. -/
theorem simplifies_foldl {components : List (List Char)} (h : ∀ c ∈ components, '/' ∉ c)
    {passed : List Part} (hpassed : ∀ part ∈ passed, part ≠ .up) :
    Relation.ReflTransGen Simplifies (passed.reverse.map Part.chars ++ components)
      (((partsIn components).foldl follow passed).reverse.map Part.chars) := by
  induction components generalizing passed with
  | nil =>
    rw [List.append_nil]
    exact .refl
  | cons c more ih =>
    rw [List.forall_mem_cons] at h
    rw [List.append_cons, partsIn_cons, List.foldl_append]
    obtain rfl | rfl | ⟨part, rfl⟩ := component_cases h.1
    · exact .head (.idle .empty) (ih h.2 hpassed)
    · exact .head (.idle .point) (ih h.2 hpassed)
    · have hread : partsIn [part.chars] = [part] := partsIn_chars [part]
      rw [hread, List.foldl_cons, List.foldl_nil]
      by_cases hup : part = .up
      · subst hup
        cases passed with
        | nil => exact .head .top (ih h.2 hpassed)
        | cons last others =>
          rw [List.forall_mem_cons] at hpassed
          have hback : Idle [last.chars, Part.up.chars] :=
            .back ((isName_chars_iff last).mpr hpassed.1)
          have hstep : Simplifies (others.reverse.map Part.chars ++
              [last.chars, Part.up.chars] ++ more) (others.reverse.map Part.chars ++ more) :=
            .idle hback
          rw [follow_up, List.tail_cons]
          refine .head ?_ (ih h.2 hpassed.2)
          simpa using hstep
      · rw [follow_of_ne_up hup]
        have hnames := ih h.2 (List.forall_mem_cons.mpr ⟨hup, hpassed⟩)
        rwa [List.reverse_cons, List.map_append] at hnames

theorem simplifies_collapse {components : List (List Char)} (h : ∀ c ∈ components, '/' ∉ c) :
    Relation.ReflTransGen Simplifies components
      ((collapse (partsIn components)).map Part.chars) := by
  have hnone : ∀ part ∈ ([] : List Part), part ≠ .up := fun _ hmem => absurd hmem List.not_mem_nil
  exact simplifies_foldl h hnone

/-- Components have one normal form: the names that are left when each way back has taken the name
before it. -/
theorem isNormalForm_iff {components names : List (List Char)} (h : ∀ c ∈ components, '/' ∉ c) :
    IsNormalForm components names ↔
      names = (collapse (partsIn components)).map Part.chars := by
  constructor
  · rintro ⟨hreached, hproper⟩
    obtain ⟨parts, rfl, hparts⟩ := exists_parts_of_isName hproper
    rw [collapse_of_reached hreached, partsIn_chars, collapse_of_no_up hparts]
  · rintro rfl
    refine ⟨simplifies_collapse h, ?_⟩
    intro name hname
    obtain ⟨part, hpart, rfl⟩ := List.mem_map.mp hname
    exact (isName_chars_iff part).mpr (ne_up_of_mem_collapse part hpart)

end Location
end CutsceneCatalog
