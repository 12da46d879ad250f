import CutsceneCatalog.Libraries.Standard
import CutsceneCatalog.Workspace
import CutsceneCatalog.Proofs.AbsoluteLocation
import CutsceneCatalog.Proofs.Trimming

/-!
# What an icon is known by

The text of a reference, once trimmed, stands for one file and for one name that the image is known
by (`Icon.Designates`): a virtual path keeps its own text for a name, any other path is joined with
the folder and named by the outcome.  Looking for the image never fails; there is none if the text
is blank or the file is no image that can be decoded.

The name leads back to the file.  It is virtual, or it starts at the root, and in both cases no
folder matters any more (`Icon.Designates.again`).  Only a name that ends with a blank is lost: it
is trimmed when it is read as a reference.
-/

namespace CutsceneCatalog

open Location (joined)

/-! ## Trimmed texts -/

namespace Text

theorem trim_eq_empty_iff (s : String) : trim s = "" ↔ ∀ c ∈ s.toList, isBlank c = true := by
  rw [← String.toList_eq_nil_iff, toList_trim, trimChars_eq_iff]
  constructor
  · rintro ⟨before, after, hs, hbefore, hafter, -, -⟩ c hc
    rw [hs, List.append_nil, List.mem_append] at hc
    exact hc.elim (hbefore c) (hafter c)
  · intro h
    exact ⟨s.toList, [], by simp, h, by simp, by simp, by simp⟩

/-- A text with no blank at either end is its own trimmed text. -/
theorem trim_eq_self {s : String} (hfirst : ∀ c ∈ s.toList.head?, isBlank c = false)
    (hlast : ∀ c ∈ s.toList.getLast?, isBlank c = false) : trim s = s := by
  apply String.toList_injective
  rw [toList_trim, trimChars_eq_iff]
  exact ⟨[], [], by simp, by simp, by simp, hfirst, hlast⟩

theorem trim_trim (s : String) : trim (trim s) = trim s := by
  obtain ⟨-, -, -, -, -, hfirst, hlast⟩ := trimChars_eq_iff.mp (Eq.refl (trimChars s.toList))
  rw [← toList_trim] at hfirst hlast
  exact trim_eq_self hfirst hlast

end Text

/-! ## Absolute locations -/

namespace Location

theorem isAbsolute_under {folder : Location} (h : folder.isAbsolute = true) (l : Location) :
    (folder.under l).isAbsolute = true := by
  rw [under]
  split
  · next hl => exact hl
  · exact h

theorem head?_text_of_isAbsolute {l : Location} (h : l.isAbsolute = true) :
    l.text.toList.head? = some '/' := by
  rw [← isAbsolute_ofString, ofString_text]
  exact h

end Location

/-! ## References -/

namespace Icon

variable {files : Files} {host : Host} {settings : Settings} {folder target : Location}
  {text known : String}

/-- The file that the text of a reference stands for, and the name that its image is known by. -/
inductive Designates (settings : Settings) (host : Host) (folder : Location) (text : String) :
    Location → String → Prop
  | virtual {root : VirtualRoot} {rest : String} (h : Text.trim text = root.marker ++ rest) :
      Designates settings host folder text (settings.locate host (root.marker ++ rest))
        (root.marker ++ rest)
  | plain (hne : Text.trim text ≠ "") (h : IsPlain (Text.trim text)) :
      Designates settings host folder text (.ofString (joined folder.text (Text.trim text)))
        (Location.ofString (joined folder.text (Text.trim text))).text

/-- There is no image to be had from a file: it cannot be opened, or does not decode. -/
inductive NoImage (files : Files) (host : Host) (target : Location) : Prop
  | unopened {fault : FileFault} (h : files.read host.current target = .error fault)
  | bytes {bs : List UInt8} (h : files.read host.current target = .ok (.bytes bs))
  | broken {width height : Nat}
      (h : files.read host.current target = .ok (.image width height false))

theorem open?_eq_none_iff : open? files host known target = none ↔ NoImage files host target := by
  constructor
  · intro h
    unfold open? at h
    split at h
    · cases h
    · next hnot =>
      rcases hread : files.read host.current target with fault | bs | ⟨width, height, decodes⟩
      · exact .unopened hread
      · exact .bytes hread
      · cases decodes with
        | false => exact .broken hread
        | true => exact absurd hread (hnot width height)
  · rintro (h | h | h) <;> rw [open?, h]

theorem open?_eq_some_iff {icon : Icon} :
    open? files host known target = some icon ↔ icon.resourcePath = known ∧
      files.read host.current target = .ok (.image icon.width icon.height true) := by
  constructor
  · intro h
    unfold open? at h
    split at h
    · next hread =>
      obtain rfl := Option.some.inj h
      exact ⟨rfl, hread⟩
    · cases h
  · rintro ⟨rfl, hread⟩
    rw [open?, hread]

theorem marker_append_ne_empty (root : VirtualRoot) (rest : String) : root.marker ++ rest ≠ "" := by
  rw [ne_eq, ← String.toList_eq_nil_iff]
  cases root <;> simp [VirtualRoot.marker, String.toList_append]

theorem Designates.load?_eq (h : Designates settings host folder text target known) :
    load? files host settings folder text = open? files host known target := by
  cases h with
  | @virtual root rest h =>
    rw [load?, IconReference.ofText, h, if_neg (marker_append_ne_empty root rest),
      VirtualRoot.split?_marker, Settings.locate_marker]
  | plain hne h =>
    rw [load?, IconReference.ofText, if_neg hne, (isPlain_iff _).mp h,
      Location.ofString_joined_text]
    rfl

theorem load?_of_blank (h : ∀ c ∈ text.toList, Text.isBlank c = true) :
    load? files host settings folder text = none := by
  rw [load?, IconReference.ofText, if_pos ((Text.trim_eq_empty_iff text).mpr h)]

/-- Every text that is not blank stands for a file. -/
theorem exists_designated (settings : Settings) (host : Host) (folder : Location)
    (h : ¬∀ c ∈ text.toList, Text.isBlank c = true) :
    ∃ target known, Designates settings host folder text target known := by
  obtain hplain | ⟨root, rest, hmarker⟩ := isPlain_or_marker (Text.trim text)
  · exact ⟨_, _, .plain (mt (Text.trim_eq_empty_iff text).mp h) hplain⟩
  · exact ⟨_, _, .virtual hmarker⟩

/-- From any folder, the name of an image stands for its file, and for itself as the name. -/
theorem Designates.again (h : Designates settings host folder text target known)
    (hfolder : folder.isAbsolute = true)
    (hlast : ∀ c ∈ known.toList.getLast?, Text.isBlank c = false) (elsewhere : Location) :
    Designates settings host elsewhere known target known := by
  cases h with
  | @virtual root rest h =>
    refine .virtual ?_
    rw [← h, Text.trim_trim]
  | plain hne h =>
    have htarget := Location.ofString_joined_text folder (Text.trim text)
    generalize Location.ofString (joined folder.text (Text.trim text)) = target at htarget hlast ⊢
    have habsolute : target.isAbsolute = true :=
      htarget ▸ Location.isAbsolute_under hfolder (.ofString (Text.trim text))
    have hslash := Location.head?_text_of_isAbsolute habsolute
    have htrim : Text.trim target.text = target.text := by
      refine Text.trim_eq_self ?_ hlast
      rw [hslash]
      simp [Text.isBlank]
    have hjoined : Location.ofString (joined elsewhere.text (Text.trim target.text)) = target := by
      rw [htrim, joined, if_pos hslash, Location.ofString_text]
    have hagain : Designates settings host elsewhere target.text
        (.ofString (joined elsewhere.text (Text.trim target.text)))
        (Location.ofString (joined elsewhere.text (Text.trim target.text))).text := by
      refine .plain ?_ ?_
      · rw [htrim, ne_eq, ← String.toList_eq_nil_iff]
        intro hnil
        rw [hnil] at hslash
        cases hslash
      · rw [htrim]
        exact isPlain_of_slash hslash
    rwa [hjoined] at hagain

end Icon

/-- With settings at hand, looking for an icon cannot fail, and nothing changes. -/
theorem Workspace.icon_of_settings (workspace : Workspace) (settings : Settings)
    (folder : Location) (text : String) :
    workspace.icon (some settings) folder text =
      (.ok (Icon.load? workspace.files workspace.host settings folder text), workspace) := by
  unfold Workspace.icon Icon.load?
  cases IconReference.ofText text <;> rfl

/-- A workspace in the folder `/fs`, with an image in the folder `/fs/icons`. -/
def workspaceWithIcon : Workspace where
  files := ⟨[([⟨"fs", rfl⟩], .folder), ([⟨"fs", rfl⟩, ⟨"icons", rfl⟩], .folder),
    ([⟨"fs", rfl⟩, ⟨"icons", rfl⟩, ⟨"a.png", rfl⟩], .file (.image 8 4 true))]⟩
  host := { Host.atRoot with current := [⟨"fs", rfl⟩] }
  session := .start []

end CutsceneCatalog
