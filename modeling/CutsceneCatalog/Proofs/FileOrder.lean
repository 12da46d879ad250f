import CutsceneCatalog.Files.Pattern
import CutsceneCatalog.Proofs.Outcome
import Mathlib.Data.Char
import Mathlib.Data.List.Lex

/-!
# The order of the files in a folder

The files that a pattern finds come in the order of their parts, however they were listed.
`Pattern.matched` is the listing: everything in a folder that matches a pattern, each thing once.
`Pattern.filesInOrder` makes of a listing what is found: its regular files, in order.

`Pattern.filesInOrder_of_perm` is the main statement: two listings of the same things lead to the
same files in the same order.  That is so because no two of them stand at one place in the order:
all things listed in one folder have its anchor, and with the same anchor and the same parts they
are the same (`Pattern.sortKey_injective`).
-/

namespace CutsceneCatalog

namespace Pattern

/-! ## The order of locations -/

/-- The texts of the parts of a location, which say where it stands among others. -/
def sortKey (l : Location) : List (List Char) := l.parts.map fun part => part.text.toList

theorem lex_toNat_eq (s t : List Char) :
    s.lex t (fun c d => decide (c.toNat < d.toNat)) = decide (s < t) := by
  have hlt : (fun c d : Char => decide (c.toNat < d.toNat)) = fun c d => decide (c < d) := by
    funext c d
    rfl
  rw [hlt, Bool.eq_iff_iff, List.lex_eq_true_iff_lt, decide_eq_true_iff]

theorem before_eq_true_iff (a b : Location) : before a b = true ↔ sortKey a ≤ sortKey b := by
  rw [← not_lt, ← List.lex_eq_true_iff_lt, Bool.not_eq_true, ← Bool.not_eq_true']
  simp only [before, sortKey, lex_toNat_eq]

theorem before_trans (a b c : Location) (hab : before a b = true) (hbc : before b c = true) :
    before a c = true := by
  rw [before_eq_true_iff] at hab hbc ⊢
  exact le_trans hab hbc

theorem before_total (a b : Location) : (before a b || before b a) = true := by
  rw [Bool.or_eq_true, before_eq_true_iff, before_eq_true_iff]
  exact le_total _ _

/-- Locations of one anchor that stand at one place are the same. -/
theorem sortKey_injective {a b : Location} (hanchor : a.anchor = b.anchor)
    (h : sortKey a = sortKey b) : a = b := by
  have hpart : Function.Injective fun part : Part => part.text.toList := by
    rintro ⟨s, hs⟩ ⟨t, ht⟩ hst
    obtain rfl := String.toList_inj.mp hst
    rfl
  have hparts : a.parts = b.parts := hpart.list_map h
  cases a
  cases b
  simp_all

/-- However locations of one anchor are listed, they are put into the same order. -/
theorem mergeSort_before_of_perm {anchor : Anchor} {listed others : List Location}
    (hperm : listed.Perm others) (hanchor : ∀ l ∈ listed, l.anchor = anchor) :
    listed.mergeSort before = others.mergeSort before := by
  have hsorted (ls : List Location) :
      (ls.mergeSort before).Pairwise fun a b => before a b = true :=
    List.pairwise_mergeSort before_trans before_total ls
  refine List.Perm.eq_of_pairwise ?_ (hsorted listed) (hsorted others) ?_
  · intro a b ha hb hab hba
    rw [List.mem_mergeSort] at ha hb
    rw [before_eq_true_iff] at hab hba
    refine sortKey_injective ?_ (le_antisymm hab hba)
    rw [hanchor a ha, hanchor b (hperm.mem_iff.mpr hb)]
  · exact (List.mergeSort_perm listed before).trans
      (hperm.trans (List.mergeSort_perm others before).symm)

/-! ## Listings -/

/-- What matches a pattern in a folder, each thing once; a folder that is not there has nothing. -/
def matched (files : Files) (current : List Part) (folder : Location) (pattern : String) :
    Except PatternFault (List Location) := do
  let (steps, slash) ← steps pattern
  if ← stands files current true folder then
    let found ← followAll files current slash steps [folder]
    return found.eraseDups
  else return []

/-- The regular files among what is listed, in order. -/
def filesInOrder (files : Files) (current : List Part) (listed : List Location) :
    Except PatternFault (List Location) := do
  let regular ← listed.filterM (regular files current)
  return regular.mergeSort before

theorem filesInOrder_eq_ok_iff {files : Files} {current : List Part}
    {listed found : List Location} :
    filesInOrder files current listed = .ok found ↔
      (∀ l ∈ listed, ∃ b, regular files current l = .ok b) ∧
        found = (listed.filter fun l => regular files current l = .ok true).mergeSort before := by
  simp only [filesInOrder, bind_eq_ok_iff, pure_eq_ok_iff, filterM_eq_ok_iff]
  constructor
  · rintro ⟨kept, ⟨hjudged, rfl⟩, rfl⟩
    exact ⟨hjudged, rfl⟩
  · rintro ⟨hjudged, rfl⟩
    exact ⟨_, ⟨hjudged, rfl⟩, rfl⟩

theorem filesInOrder_nil (files : Files) (current : List Part) :
    filesInOrder files current [] = .ok [] :=
  filesInOrder_eq_ok_iff.mpr (by simp)

/-- What is found is what matches, less what is no regular file, in order. -/
theorem find_eq (files : Files) (current : List Part) (folder : Location) (pattern : String) :
    files.find current folder pattern =
      matched files current folder pattern >>= filesInOrder files current := by
  unfold Files.find matched
  cases steps pattern with
  | error fault => rfl
  | ok read =>
    obtain ⟨steps, slash⟩ := read
    dsimp only [bind, Except.bind]
    cases stands files current true folder with
    | error fault => rfl
    | ok there =>
      cases there with
      | false => exact (filesInOrder_nil files current).symm
      | true =>
        cases followAll files current slash steps [folder] <;> rfl

section

variable {files : Files} {current : List Part} {slash : Bool} {folder : Location}

/-- A step leads to locations of the same anchor. -/
theorem anchor_of_mem_follow {foldersOnly : Bool} {step : Step} {found : List Location}
    (h : follow files current foldersOnly folder step = .ok found) :
    ∀ l ∈ found, l.anchor = folder.anchor := by
  intro l hl
  cases step with
  | folders =>
    obtain rfl := Except.ok.inj h
    simp only [foldersUnder, List.mem_cons, List.mem_filterMap] at hl
    obtain rfl | ⟨⟨key, entry⟩, -, hentry⟩ := hl
    · rfl
    · cases entry with
      | file content => cases hentry
      | folder =>
        obtain ⟨-, heq⟩ := Option.ite_none_right_eq_some.mp hentry
        rw [← Option.some.inj heq]
  | up =>
    obtain rfl := Except.ok.inj h
    rw [List.mem_singleton.mp hl]
    rfl
  | named part =>
    obtain ⟨there, -, hfound⟩ := bind_eq_ok_iff.mp h
    cases there with
    | false =>
      obtain rfl : [] = found := Except.ok.inj hfound
      cases hl
    | true =>
      obtain rfl : [folder.inside part] = found := Except.ok.inj hfound
      rw [List.mem_singleton.mp hl]
      rfl
  | matching signs =>
    obtain rfl := Except.ok.inj h
    obtain ⟨name, -, hname⟩ := List.mem_filterMap.mp hl
    obtain ⟨-, heq⟩ := Option.ite_none_right_eq_some.mp hname
    rw [← Option.some.inj heq]
    rfl

/-- So do any number of steps. -/
theorem anchor_of_mem_followAll {anchor : Anchor} {steps : List Step}
    {folders found : List Location} (h : followAll files current slash steps folders = .ok found)
    (hfolders : ∀ l ∈ folders, l.anchor = anchor) : ∀ l ∈ found, l.anchor = anchor := by
  induction steps generalizing folders with
  | nil =>
    obtain rfl := Except.ok.inj h
    exact hfolders
  | cons step rest ih =>
    obtain ⟨founds, hfounds, hrest⟩ := bind_eq_ok_iff.mp h
    refine ih hrest ?_
    intro l hl
    obtain ⟨found, hfound, hl⟩ := List.mem_flatten.mp hl
    obtain ⟨folder, hfolder, hfollow⟩ :=
      exists_partner_of_forall₂ (mapM_eq_ok_iff.mp hfounds) found hfound
    rw [anchor_of_mem_follow hfollow l hl, hfolders folder hfolder]

/-- What matches in a folder has the anchor of the folder. -/
theorem anchor_of_mem_matched {pattern : String} {listed : List Location}
    (h : matched files current folder pattern = .ok listed) :
    ∀ l ∈ listed, l.anchor = folder.anchor := by
  obtain ⟨⟨steps, slash⟩, -, h⟩ := bind_eq_ok_iff.mp h
  obtain ⟨there, -, h⟩ := bind_eq_ok_iff.mp h
  cases there with
  | false =>
    obtain rfl : [] = listed := Except.ok.inj h
    intro l hl
    cases hl
  | true =>
    obtain ⟨found, hfound, hlisted⟩ := bind_eq_ok_iff.mp h
    obtain rfl : found.eraseDups = listed := Except.ok.inj hlisted
    intro l hl
    refine anchor_of_mem_followAll hfound ?_ l (List.mem_eraseDups.mp hl)
    simp

/-- In whatever order the things in a folder are listed, the same files are found in the same
order. -/
theorem filesInOrder_of_perm {anchor : Anchor} {listed others found : List Location}
    (h : filesInOrder files current listed = .ok found) (hperm : listed.Perm others)
    (hanchor : ∀ l ∈ listed, l.anchor = anchor) :
    filesInOrder files current others = .ok found := by
  rw [filesInOrder_eq_ok_iff] at h ⊢
  obtain ⟨hjudged, rfl⟩ := h
  refine ⟨fun l hl => hjudged l (hperm.mem_iff.mpr hl), ?_⟩
  exact mergeSort_before_of_perm (hperm.filter _) fun l hl =>
    hanchor l (List.mem_of_mem_filter hl)

end

end Pattern

end CutsceneCatalog
