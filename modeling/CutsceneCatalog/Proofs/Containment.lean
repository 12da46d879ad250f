import CutsceneCatalog.Import
import CutsceneCatalog.Libraries.Standard
import CutsceneCatalog.Proofs.IconIdentity
import CutsceneCatalog.Proofs.PathSpelling

/-!
# What stays below a folder

Where parts lead from a folder is told by two things, each of the parts alone: how far they climb
out of the folder they start in (`Location.climb`), and the names that are left of them.  From any
names, the parts lead to all but the last of these names, as many as the climb says, with the names
left of the parts behind them (`Location.collapse_append`).

A virtual path looks nowhere but below the folder of its root as long as what follows the marker is
no absolute path and does not climb (`StaysBelow`).  Nothing keeps other paths there: one that
starts with a slash replaces the folder, one that climbs leads to the folders around it, and so each
of them leaves some folder (`Settings.locate_marker_below`).

All this is about addresses without the null character (`Location.NullFree`): no file can be asked
for by another one, and the way to it is not even looked up.
-/

namespace CutsceneCatalog

/-- Characters without the null character. -/
def Text.NullFree (cs : List Char) : Prop := '\x00' ∉ cs

instance (cs : List Char) : Decidable (Text.NullFree cs) :=
  inferInstanceAs (Decidable ('\x00' ∉ cs))

namespace Location

/-! ## Addresses that can be asked for -/

/-- No part of the address has the null character in it. -/
def NullFree (l : Location) : Prop := ∀ part ∈ l.parts, Text.NullFree part.chars

instance (l : Location) : Decidable l.NullFree :=
  inferInstanceAs (Decidable (∀ part ∈ l.parts, Text.NullFree part.chars))

theorem nullFree_ofString {s : String} (h : Text.NullFree s.toList) : (ofString s).NullFree :=
  fun _ hpart hnull => h (mem_of_mem_partsOf hpart hnull)

theorem NullFree.under {base l : Location} (hbase : base.NullFree) (h : l.NullFree) :
    (base.under l).NullFree := by
  rw [Location.under]
  split
  · exact h
  · exact fun part hpart => (List.mem_append.mp hpart).elim (hbase part) (h part)

/-! ## Climbing -/

/-- How far parts climb out of the folder they start in: the greatest number by which, in any first
parts, the ways back exceed the names. -/
def climb : List Part → Nat
  | [] => 0
  | part :: rest => if part = .up then climb rest + 1 else climb rest - 1

theorem climb_up (rest : List Part) : climb (.up :: rest) = climb rest + 1 := if_pos rfl

theorem climb_of_ne_up {part : Part} (h : part ≠ .up) (rest : List Part) :
    climb (part :: rest) = climb rest - 1 := if_neg h

/-- The number of parts that are names. -/
def nameCount (parts : List Part) : Nat := parts.countP fun part => part ≠ .up

theorem nameCount_up (rest : List Part) : nameCount (.up :: rest) = nameCount rest :=
  List.countP_cons_of_neg (by simp)

theorem nameCount_of_ne_up {part : Part} (h : part ≠ .up) (rest : List Part) :
    nameCount (part :: rest) = nameCount rest + 1 :=
  List.countP_cons_of_pos (by simpa using h)

theorem forall_prefix_cons {p : List Part → Prop} {part : Part} {rest : List Part} :
    (∀ first, first <+: part :: rest → p first) ↔
      p [] ∧ ∀ first, first <+: rest → p (part :: first) := by
  simp only [List.prefix_cons_iff, forall_eq_or_imp]
  refine and_congr_right fun _ => ⟨?_, ?_⟩
  · exact fun h first hfirst => h _ ⟨first, rfl, hfirst⟩
  · rintro h _ ⟨first, rfl, hfirst⟩
    exact h first hfirst

/-- The climb bounds the excess of ways back in all first parts, and is the least such bound. -/
theorem climb_le_iff {parts : List Part} {k : Nat} :
    climb parts ≤ k ↔ ∀ first, first <+: parts → first.count .up ≤ nameCount first + k := by
  induction parts generalizing k with
  | nil => simp [climb]
  | cons part rest ih =>
    rw [forall_prefix_cons, List.count_nil, and_iff_right (Nat.zero_le _)]
    by_cases hpart : part = .up
    · subst hpart
      simp only [climb_up, List.count_cons_self, nameCount_up]
      cases k with
      | zero =>
        refine ⟨fun h => absurd h (Nat.not_succ_le_zero _), fun h => ?_⟩
        -- The way back exceeds the names already when nothing follows it.
        have hnone := h [] List.nil_prefix
        simp [nameCount] at hnone
      | succ k =>
        rw [Nat.succ_le_succ_iff, ih]
        exact forall₂_congr fun first _ => by omega
    · rw [climb_of_ne_up hpart, Nat.sub_le_iff_le_add, ih]
      refine forall₂_congr fun first _ => ?_
      rw [List.count_cons_of_ne hpart, nameCount_of_ne_up hpart]
      omega

/-- The stack of names after some parts: those left of the parts, on those that the parts do not
take from the stack. -/
theorem foldl_follow_eq (parts passed : List Part) :
    parts.foldl follow passed = (collapse parts).reverse ++ passed.drop (climb parts) := by
  induction parts generalizing passed with
  | nil => rfl
  | cons part rest ih =>
    have hcollapse : (collapse (part :: rest)).reverse =
        (collapse rest).reverse ++ (follow [] part).drop (climb rest) := by
      rw [← ih]
      exact List.reverse_reverse _
    rw [List.foldl_cons, ih, hcollapse, List.append_assoc]
    by_cases hpart : part = .up
    · subst hpart
      rw [follow_up, follow_up, climb_up, List.drop_tail, List.tail_nil, List.drop_nil,
        List.nil_append]
    · rw [follow_of_ne_up hpart, follow_of_ne_up hpart, climb_of_ne_up hpart]
      cases climb rest with
      | zero => rfl
      | succ n => simp

/-- Behind other parts, parts take back as many of the names left of these as they climb. -/
theorem collapse_append (front parts : List Part) :
    collapse (front ++ parts) =
      (collapse front).take ((collapse front).length - climb parts) ++ collapse parts := by
  have hfront : front.foldl follow [] = (collapse front).reverse := (List.reverse_reverse _).symm
  rw [collapse, List.foldl_append, hfront, foldl_follow_eq, List.reverse_append,
    List.reverse_reverse, List.drop_reverse, List.reverse_reverse]

/-- The second location is the first or below it. -/
structure Encloses (folder l : Location) : Prop where
  anchor_eq : l.anchor = folder.anchor
  parts_prefix : folder.parts <+: l.parts

end Location

/-! ## Virtual paths -/

/-- What follows a marker stays below the folder of the root: it is no absolute path, and in no
first parts of it do the ways back exceed the names. -/
structure StaysBelow (rest : String) : Prop where
  relative : rest.toList.head? ≠ some '/'
  never_out : ∀ first, first <+: (Location.ofString rest).parts →
    first.count .up ≤ Location.nameCount first

namespace Settings

variable (settings : Settings) (host : Host) (root : VirtualRoot) (rest : String)

/-- The folder behind a root, with names only. -/
def rootFolder : Location :=
  { (settings.folder root).normal host.current with anchor := .root }

/-- A path that starts with a slash replaces the folder of its root.  Any other keeps the names of
the folder but for the last ones, as many as it climbs, and has its own names behind them. -/
theorem parts_locate_marker :
    (settings.locate host (root.marker ++ rest)).parts =
      if rest.toList.head? = some '/' then Location.collapse (Location.ofString rest).parts
      else
        (settings.rootFolder host root).parts.take ((settings.rootFolder host root).parts.length -
          Location.climb (Location.ofString rest).parts) ++
            Location.collapse (Location.ofString rest).parts := by
  have hparts : (settings.locate host (root.marker ++ rest)).parts =
      Location.collapse ((host.here.under (settings.folder root)).under
        (.ofString rest)).parts := by
    rw [locate_marker, Location.under_assoc]
    rfl
  rw [hparts]
  split
  · next hslash =>
    rw [Location.under, if_pos ((Location.isAbsolute_ofString rest).mpr hslash)]
  · next hslash =>
    rw [Location.under, if_neg (mt (Location.isAbsolute_ofString rest).mp hslash)]
    exact Location.collapse_append _ _

/-- Where a virtual path leads can be asked for if the folder of its root and what follows its
marker can. -/
theorem nullFree_locate_marker (hfolder : ((settings.folder root).absolute host.current).NullFree)
    (hrest : Text.NullFree rest.toList) :
    (settings.locate host (root.marker ++ rest)).NullFree := by
  have htarget : (host.here.under ((settings.folder root).under (.ofString rest))).NullFree := by
    rw [← Location.under_assoc]
    exact hfolder.under (Location.nullFree_ofString hrest)
  rw [locate_marker]
  exact Location.forall_mem_collapse fun part hpart _ => htarget part hpart

theorem anchor_locate_marker :
    (settings.locate host (root.marker ++ rest)).anchor = .root := by
  rw [locate_marker]
  rfl

variable {settings host root rest}

theorem encloses_of_staysBelow (h : StaysBelow rest) :
    (settings.rootFolder host root).Encloses (settings.locate host (root.marker ++ rest)) := by
  have hclimb : Location.climb (Location.ofString rest).parts = 0 :=
    Nat.le_zero.mp (Location.climb_le_iff.mpr h.never_out)
  refine ⟨settings.anchor_locate_marker host root rest, ?_⟩
  rw [parts_locate_marker, if_neg h.relative, hclimb, Nat.sub_zero, List.take_length]
  exact List.prefix_append _ _

theorem climb_pos_of_not_staysBelow (h : ¬StaysBelow rest)
    (hrelative : rest.toList.head? ≠ some '/') :
    0 < Location.climb (Location.ofString rest).parts := by
  rw [Nat.pos_iff_ne_zero]
  intro hclimb
  exact h ⟨hrelative, Location.climb_le_iff.mp hclimb.le⟩

/-- Settings with one folder behind both roots. -/
def rootedAt (name : Part) : Settings :=
  { standard .atRoot with projectRoot := ⟨.root, [name]⟩, userFolder := ⟨.root, [name]⟩ }

theorem folder_rootedAt (name : Part) (root : VirtualRoot) :
    (rootedAt name).folder root = ⟨.root, [name]⟩ := by
  cases root <;> rfl

theorem parts_rootFolder_rootedAt {name : Part} (h : name ≠ .up) (host : Host)
    (root : VirtualRoot) : ((rootedAt name).rootFolder host root).parts = [name] := by
  have hcollapse : Location.collapse [name] = [name] :=
    Location.collapse_of_no_up (by simpa using h)
  rw [rootFolder, folder_rootedAt]
  exact hcollapse

/-- What does not stay below leaves every folder at the root whose name it does not lead to. -/
theorem not_encloses_rootedAt (h : ¬StaysBelow rest) {name : Part} (hname : name ≠ .up)
    (hne : (Location.collapse (Location.ofString rest).parts).head? ≠ some name) (host : Host)
    (root : VirtualRoot) :
    ¬((rootedAt name).rootFolder host root).Encloses
      ((rootedAt name).locate host (root.marker ++ rest)) := by
  have hparts : ((rootedAt name).locate host (root.marker ++ rest)).parts =
      Location.collapse (Location.ofString rest).parts := by
    rw [parts_locate_marker, parts_rootFolder_rootedAt hname]
    split
    · rfl
    · next hrelative =>
      have hclimb := climb_pos_of_not_staysBelow h hrelative
      have hnone : [name].length - Location.climb (Location.ofString rest).parts = 0 := by
        rw [List.length_singleton]
        omega
      rw [hnone, List.take_zero, List.nil_append]
  rintro ⟨-, hprefix⟩
  rw [hparts, parts_rootFolder_rootedAt hname] at hprefix
  obtain ⟨others, hothers⟩ := hprefix
  rw [← hothers] at hne
  exact hne rfl

theorem exists_other_name (names : List Part) :
    ∃ name : Part, name ≠ .up ∧ Text.NullFree name.chars ∧ names.head? ≠ some name := by
  by_cases ha : names.head? = some ⟨"a", rfl⟩
  · refine ⟨⟨"b", rfl⟩, by decide, by decide, ?_⟩
    rw [ha]
    decide
  · exact ⟨⟨"a", rfl⟩, by decide, by decide, ha⟩

/-- Files that give the same at the location of a virtual path give the same image for it. -/
theorem load?_congr_of_locate {files other : Files}
    (hsame : files.read host.current (settings.locate host (root.marker ++ rest)) =
      other.read host.current (settings.locate host (root.marker ++ rest)))
    (folder : Location) {text : String} (htext : Text.trim text = root.marker ++ rest) :
    Icon.load? files host settings folder text = Icon.load? other host settings folder text := by
  have hdesignates : Icon.Designates settings host folder text _ _ := .virtual htext
  rw [hdesignates.load?_eq, hdesignates.load?_eq, Icon.open?, Icon.open?, hsame]

/-- They give the same document, too. -/
theorem document_congr_of_locate {files other : Files} {l : Location}
    (hsame : files.read host.current l = other.read host.current l) :
    Importer.document ⟨files, host, settings⟩ l = Importer.document ⟨other, host, settings⟩ l := by
  unfold Importer.document
  dsimp only
  rw [hsame]

/-- Where a virtual path leads, without a null character in it or in the folder of its root.  If
what follows its marker stays below, that is in the folder of the root, whatever the folder, and
nothing outside is read; if not, some folder does not enclose it. -/
theorem locate_marker_below (root : VirtualRoot) (rest : String)
    (hrest : Text.NullFree rest.toList) :
    (∀ (settings : Settings) (host : Host),
      ((settings.folder root).absolute host.current).NullFree →
      let folder := (settings.rootFolder host root).parts
      let parts := (Location.ofString rest).parts
      (settings.locate host (root.marker ++ rest)).NullFree ∧
      (settings.locate host (root.marker ++ rest)).parts =
        if rest.toList.head? = some '/' then Location.collapse parts
        else folder.take (folder.length - Location.climb parts) ++ Location.collapse parts) ∧
    (StaysBelow rest → ∀ (settings : Settings) (host : Host),
      ((settings.folder root).absolute host.current).NullFree →
      (settings.rootFolder host root).Encloses (settings.locate host (root.marker ++ rest)) ∧
      ∀ files other : Files,
        (∀ l, (settings.rootFolder host root).Encloses l → l.NullFree →
          files.read host.current l = other.read host.current l) →
        (∀ folder text, Text.trim text = root.marker ++ rest →
          Icon.load? files host settings folder text =
            Icon.load? other host settings folder text) ∧
        Importer.document ⟨files, host, settings⟩ (settings.locate host (root.marker ++ rest)) =
          Importer.document ⟨other, host, settings⟩
            (settings.locate host (root.marker ++ rest))) ∧
    (¬StaysBelow rest → ∃ settings : Settings,
      (∀ root, (settings.folder root).isAbsolute = true ∧ (settings.folder root).NullFree) ∧
      ∀ host, ¬(settings.rootFolder host root).Encloses
        (settings.locate host (root.marker ++ rest))) := by
  refine ⟨?_, ?_, ?_⟩
  · exact fun settings host hfolder =>
      ⟨nullFree_locate_marker settings host root rest hfolder hrest,
        parts_locate_marker settings host root rest⟩
  · intro hbelow settings host hfolder
    have hencloses : (settings.rootFolder host root).Encloses
        (settings.locate host (root.marker ++ rest)) := encloses_of_staysBelow hbelow
    have hnull := nullFree_locate_marker settings host root rest hfolder hrest
    refine ⟨hencloses, fun files other hsame => ⟨?_, ?_⟩⟩
    · exact fun folder text htext => load?_congr_of_locate (hsame _ hencloses hnull) folder htext
    · exact document_congr_of_locate (hsame _ hencloses hnull)
  · intro hout
    obtain ⟨name, hname, hnull, hne⟩ :=
      exists_other_name (Location.collapse (Location.ofString rest).parts)
    refine ⟨rootedAt name, fun root => ?_, fun host => ?_⟩
    · rw [folder_rootedAt]
      exact ⟨rfl, fun part hpart => List.mem_singleton.mp hpart ▸ hnull⟩
    · exact not_encloses_rootedAt hout hname hne host root

/-- A way back behind a name stays below. -/
theorem locate_marker_below_wayBack :
    Text.NullFree "icons/../a.png".toList ∧ StaysBelow "icons/../a.png" ∧
      (((standard hostInFs).folder .project).absolute hostInFs.current).NullFree ∧
      ((standard hostInFs).rootFolder hostInFs .project).Encloses
        ((standard hostInFs).locate hostInFs "res://icons/../a.png") := by
  have hclimb : Location.climb (Location.ofString "icons/../a.png").parts ≤ 0 := by decide
  have hbelow : StaysBelow "icons/../a.png" := ⟨by decide, Location.climb_le_iff.mp hclimb⟩
  have hrest : Text.NullFree "icons/../a.png".toList := by decide
  have hfolder : (((standard hostInFs).folder .project).absolute hostInFs.current).NullFree := by
    decide
  obtain ⟨-, hencloses, -⟩ := locate_marker_below .project "icons/../a.png" hrest
  exact ⟨hrest, hbelow, hfolder, (hencloses hbelow (standard hostInFs) hostInFs hfolder).1⟩

/-- A way back in front leads out of the folder, and an image is read there; a slash in front leads
to the root of all files. -/
theorem not_encloses_locate_wayOut :
    let settings := standard hostInFs
    let folder := settings.rootFolder hostInFs .project
    let files : Files := ⟨[([⟨"fs", rfl⟩], .folder), ([⟨"fs", rfl⟩, ⟨"project", rfl⟩], .folder),
      ([⟨"fs", rfl⟩, ⟨"a.png", rfl⟩], .file (.image 8 4 true))]⟩
    (∀ root, (settings.folder root).isAbsolute = true) ∧ folder.text = "/fs/project" ∧
      (settings.locate hostInFs "res://../a.png").text = "/fs/a.png" ∧
      (settings.locate hostInFs "res:///a.png").text = "/a.png" ∧
      ¬folder.Encloses (settings.locate hostInFs "res://../a.png") ∧
      ¬folder.Encloses (settings.locate hostInFs "res:///a.png") ∧
      Icon.load? files hostInFs settings folder "res://../a.png" =
        some ⟨"res://../a.png", 8, 4⟩ := by
  intro settings folder files
  refine ⟨?_, by decide, by decide, by decide, ?_, ?_, by decide +kernel⟩
  · intro root
    cases root <;> decide
  · exact fun h => absurd h.parts_prefix (by decide)
  · exact fun h => absurd h.parts_prefix (by decide)

end Settings

end CutsceneCatalog
