import CutsceneCatalog.Proofs.LexicalForm
import CutsceneCatalog.Proofs.TextLines

/-!
# Locations and their texts

A location is read back from its text (`Location.ofString_text`), and to join a path with the text
of a folder is to take its location under the folder (`Location.ofString_joined_text`).  What comes
before the first component is a number of slashes.  They decide the anchor and nothing else does;
only two of them count as more than one (`Anchor.ofChars_slashes`).
-/

namespace CutsceneCatalog

/-! ## Slashes in front -/

namespace Anchor

/-- The anchor of a text that starts with so many slashes. -/
def ofSlashes : Nat → Anchor
  | 0 => .relative
  | 2 => .doubleRoot
  | _ => .root

/-- How many slashes an anchor is written with. -/
def slashes : Anchor → Nat
  | .relative => 0
  | .root => 1
  | .doubleRoot => 2

theorem ofSlashes_slashes (anchor : Anchor) : ofSlashes anchor.slashes = anchor := by
  cases anchor <;> rfl

theorem toList_text (anchor : Anchor) : anchor.text.toList = List.replicate anchor.slashes '/' := by
  cases anchor <;> rfl

/-- Behind the slashes in front, nothing matters for the anchor. -/
theorem ofChars_slashes (n : Nat) {rest : List Char} (h : rest.head? ≠ some '/') :
    ofChars (List.replicate n '/' ++ rest) = ofSlashes n := by
  cases rest with
  | nil => match n with
    | 0 | 1 | 2 => rfl
    | n + 3 => simp [List.replicate_succ, ofChars, ofSlashes]
  | cons c more =>
    have hc : c ≠ '/' := by simpa using h
    match n with
    | 0 | 1 | 2 => simp [List.replicate_succ, ofChars, ofSlashes, hc]
    | n + 3 => simp [List.replicate_succ, ofChars, ofSlashes]

theorem exists_slashes (cs : List Char) :
    ∃ n rest, cs = List.replicate n '/' ++ rest ∧ rest.head? ≠ some '/' := by
  induction cs with
  | nil => exact ⟨0, [], rfl, by simp⟩
  | cons c more ih =>
    by_cases hc : c = '/'
    · obtain ⟨n, rest, rfl, hrest⟩ := ih
      exact ⟨n + 1, rest, by rw [hc, List.replicate_succ, List.cons_append], hrest⟩
    · exact ⟨0, c :: more, rfl, by simpa using hc⟩

/-- A text keeps its anchor when something is put behind it, unless slashes meet. -/
theorem ofChars_append {front back : List Char} (h : front ≠ [])
    (hmeet : back.head? = some '/' → front.getLast? ≠ some '/') :
    ofChars (front ++ back) = ofChars front := by
  obtain ⟨n, rest, rfl, hrest⟩ := exists_slashes front
  rw [List.append_assoc, ofChars_slashes n hrest]
  apply ofChars_slashes
  cases rest with
  | cons c more => exact hrest
  | nil =>
    intro hback
    rw [List.append_nil] at h hmeet
    have hn : n ≠ 0 := by
      rintro rfl
      exact h rfl
    apply hmeet hback
    rw [List.getLast?_replicate, if_neg hn]

theorem ofChars_eq_doubleRoot_iff (cs : List Char) :
    ofChars cs = .doubleRoot ↔ ∃ rest, cs = '/' :: '/' :: rest ∧ rest.head? ≠ some '/' := by
  constructor
  · intro h
    obtain ⟨n, rest, rfl, hrest⟩ := exists_slashes cs
    rw [ofChars_slashes n hrest] at h
    match n, h with
    | 2, _ => exact ⟨rest, rfl, hrest⟩
  · rintro ⟨rest, rfl, hrest⟩
    exact ofChars_slashes 2 hrest

theorem ofChars_ne_relative_iff (cs : List Char) :
    ofChars cs ≠ .relative ↔ cs.head? = some '/' := by
  obtain ⟨n, rest, rfl, hrest⟩ := exists_slashes cs
  rw [ofChars_slashes n hrest]
  match n with
  | 0 => simpa [ofSlashes] using hrest
  | 1 | 2 => simp [ofSlashes, List.replicate_succ]
  | n + 3 => simp [ofSlashes, List.replicate_succ]

end Anchor

namespace Location

/-! ## Parts of a text -/

theorem partsOf_eq (cs : List Char) : partsOf cs = partsIn (Text.pieces '/' cs) := rfl

theorem partsOf_append_slash (front back : List Char) :
    partsOf (front ++ '/' :: back) = partsOf front ++ partsOf back := by
  rw [partsOf_eq, Text.pieces_append_separator, partsIn_append]
  rfl

theorem partsOf_slashes (n : Nat) (cs : List Char) :
    partsOf (List.replicate n '/' ++ cs) = partsOf cs := by
  induction n with
  | zero => rfl
  | succ n ih =>
    rw [List.replicate_succ, List.cons_append]
    exact (partsOf_append_slash [] _).trans ih

theorem partsOf_join {components : List (List Char)} (h : ∀ c ∈ components, '/' ∉ c) :
    partsOf (Text.join '/' components) = partsIn components := by
  cases components with
  | nil => decide
  | cons c more => rw [partsOf_eq, Text.pieces_join (List.cons_ne_nil c more) h]

theorem no_slash_of_mem_chars (parts : List Part) :
    ∀ c ∈ parts.map Part.chars, '/' ∉ c := by
  intro c hc
  obtain ⟨part, -, rfl⟩ := List.mem_map.mp hc
  exact (chars_proper part).2.2

/-- The characters of a part are characters of the text. -/
theorem mem_of_mem_partsOf {part : Part} {c : Char} {cs : List Char} (h : part ∈ partsOf cs)
    (hc : c ∈ part.chars) : c ∈ cs := by
  obtain ⟨piece, hpiece, hread⟩ := List.mem_filterMap.mp h
  have hchars : part.chars = piece := by
    rw [Part.ofString?] at hread
    split at hread
    · rw [← Option.some.inj hread]
      exact String.toList_ofList
    · exact absurd hread (Option.some_ne_none part).symm
  exact Text.mem_of_mem_pieces hpiece (hchars ▸ hc)

/-- Components that begin with one that is not empty do not begin with a slash. -/
theorem head?_join {component : List Char} (h : component ≠ []) (hslash : '/' ∉ component)
    (more : List (List Char)) : (Text.join '/' (component :: more)).head? ≠ some '/' := by
  cases component with
  | nil => exact absurd rfl h
  | cons c others =>
    have hhead : (Text.join '/' ((c :: others) :: more)).head? = some c := by
      cases more <;> rfl
    rw [hhead]
    rintro heq
    exact hslash (Option.some.inj heq ▸ List.mem_cons_self)

theorem head?_join_chars (parts : List Part) :
    (Text.join '/' (parts.map Part.chars)).head? ≠ some '/' := by
  cases parts with
  | nil => decide
  | cons part more => exact head?_join (chars_proper part).1 (chars_proper part).2.2 _

/-- Names end without a slash: one at the end would have an empty component behind it. -/
theorem getLast?_join_chars {parts : List Part} (h : parts ≠ []) :
    ∃ c, (Text.join '/' (parts.map Part.chars)).getLast? = some c ∧ c ≠ '/' := by
  have hpieces := Text.pieces_join (mt List.map_eq_nil_iff.mp h)
    (no_slash_of_mem_chars parts)
  have hnil : [] ∉ parts.map Part.chars := by
    intro hmem
    obtain ⟨part, -, hpart⟩ := List.mem_map.mp hmem
    exact (chars_proper part).1 hpart
  rcases List.eq_nil_or_concat (Text.join '/' (parts.map Part.chars)) with
    hempty | ⟨front, c, hjoin⟩
  · rw [hempty] at hpieces
    exact absurd (hpieces ▸ List.mem_cons_self) hnil
  · rw [List.concat_eq_append] at hjoin
    refine ⟨c, by rw [hjoin, List.getLast?_concat], ?_⟩
    rintro rfl
    rw [hjoin, Text.pieces_append_separator] at hpieces
    exact hnil (hpieces ▸ List.mem_append_right _ List.mem_cons_self)

/-! ## Texts of locations -/

theorem toList_text {l : Location} (h : ¬(l.anchor = .relative ∧ l.parts = [])) :
    l.text.toList =
      List.replicate l.anchor.slashes '/' ++ Text.join '/' (l.parts.map Part.chars) := by
  rw [text, if_neg h, String.toList_append, Anchor.toList_text, String.toList_ofList]
  rfl

/-- A location is read back from its text. -/
@[simp] theorem ofString_text (l : Location) : ofString l.text = l := by
  obtain ⟨anchor, parts⟩ := l
  by_cases hpoint : anchor = .relative ∧ parts = []
  · obtain ⟨rfl, rfl⟩ := hpoint
    decide
  · rw [ofString, toList_text hpoint, Anchor.ofChars_slashes _ (head?_join_chars parts),
      Anchor.ofSlashes_slashes, partsOf_slashes, partsOf_join (no_slash_of_mem_chars parts),
      partsIn_chars]

theorem isAbsolute_ofString (s : String) :
    (ofString s).isAbsolute = true ↔ s.toList.head? = some '/' := by
  rw [isAbsolute, bne_iff_ne]
  exact Anchor.ofChars_ne_relative_iff s.toList

/-! ## Joining -/

theorem under_mk (folder : Location) (anchor : Anchor) (parts : List Part) :
    folder.under ⟨anchor, parts⟩ =
      if anchor = .relative then ⟨folder.anchor, folder.parts ++ parts⟩ else ⟨anchor, parts⟩ := by
  cases anchor <;> rfl

theorem under_assoc (outer folder l : Location) :
    (outer.under folder).under l = outer.under (folder.under l) := by
  obtain ⟨anchor, parts⟩ := l
  obtain ⟨folderAnchor, folderParts⟩ := folder
  cases anchor with
  | root | doubleRoot => rfl
  | relative => cases folderAnchor with
    | root | doubleRoot => rfl
    | relative => exact congrArg (Location.mk outer.anchor) (List.append_assoc ..)

/-- A path joined with a folder: one that starts with a slash replaces it. -/
def joined (folder path : String) : String :=
  if path.toList.head? = some '/' then path
  else if folder = "" ∨ folder.toList.getLast? = some '/' then folder ++ path
  else folder ++ "/" ++ path

theorem ofString_joined (folder path : String) :
    ofString (joined folder path) = (ofString folder).under (ofString path) := by
  by_cases habsolute : path.toList.head? = some '/'
  · rw [joined, if_pos habsolute, under, if_pos ((isAbsolute_ofString path).mpr habsolute)]
  rw [joined, if_neg habsolute, under, if_neg (mt (isAbsolute_ofString path).mp habsolute)]
  by_cases hempty : folder = ""
  · have hrelative : Anchor.ofChars path.toList = .relative :=
      not_not.mp (mt (Anchor.ofChars_ne_relative_iff path.toList).mp habsolute)
    rw [if_pos (.inl hempty), hempty, String.empty_append, ofString, hrelative]
    rfl
  have hfolder : folder.toList ≠ [] := mt String.toList_eq_nil_iff.mp hempty
  by_cases hslash : folder.toList.getLast? = some '/'
  · have hanchor : Anchor.ofChars (folder.toList ++ path.toList) = .ofChars folder.toList :=
      Anchor.ofChars_append hfolder fun h => absurd h habsolute
    have hparts : partsOf (folder.toList ++ path.toList) =
        partsOf folder.toList ++ partsOf path.toList := by
      obtain ⟨front, hfront⟩ := List.getLast?_eq_some_iff.mp hslash
      have hend : partsOf (front ++ ['/']) = partsOf front := by
        rw [partsOf_append_slash]
        exact List.append_nil _
      rw [hfront, hend, List.append_assoc, List.singleton_append, partsOf_append_slash]
    rw [if_pos (.inr hslash), ofString, String.toList_append, hanchor, hparts]
    rfl
  · have hanchor : Anchor.ofChars (folder.toList ++ '/' :: path.toList) =
        .ofChars folder.toList := Anchor.ofChars_append hfolder fun _ => hslash
    have hchars : (folder ++ "/" ++ path).toList = folder.toList ++ '/' :: path.toList := by
      simp [String.toList_append]
    rw [if_neg (not_or.mpr ⟨hempty, hslash⟩), ofString, hchars, hanchor, partsOf_append_slash]
    rfl

/-- To join a path with a folder is to take its location under the folder. -/
theorem ofString_joined_text (folder : Location) (path : String) :
    ofString (joined folder.text path) = folder.under (ofString path) := by
  rw [ofString_joined, ofString_text]

end Location
end CutsceneCatalog
