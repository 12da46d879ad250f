import CutsceneCatalog.Settings
import CutsceneCatalog.Proofs.LocationText

/-!
# Absolute locations of paths

The location that a path stands for, told from the path that has to be made normal
(`Settings.Target`): what follows the marker of a virtual path is joined with the folder behind its
root, and the current folder is joined with whatever does not start at the root already.  The two
ways to a location, of a virtual path and of a plain one, both come to the parts of this one path
(`Settings.Target.parts_locate`); they differ in the anchor only, where a plain path keeps two
slashes in front (`Settings.locate_anchor`).

A location that is absolute and has names only is found again from its text, in any folder and with
any settings (`Location.IsNormal.locate_text`).
-/

namespace CutsceneCatalog

open Location (joined)

/-! ## Plain and virtual paths -/

/-- A path that does not start with the marker of a root. -/
def IsPlain (path : String) : Prop :=
  ∀ (root : VirtualRoot) (rest : String), path ≠ root.marker ++ rest

theorem VirtualRoot.split?_eq_some_iff (path : String) (root : VirtualRoot) (rest : String) :
    split? path = some (root, rest) ↔ path = root.marker ++ rest := by
  constructor
  · intro h
    apply String.toList_injective
    unfold split? at h
    split at h
    · next chars hchars =>
      obtain ⟨rfl, rfl⟩ := Prod.mk.inj (Option.some.inj h)
      simp [marker, hchars, String.toList_append]
    · next chars hchars =>
      obtain ⟨rfl, rfl⟩ := Prod.mk.inj (Option.some.inj h)
      simp [marker, hchars, String.toList_append]
    · cases h
  · rintro rfl
    exact split?_marker root rest

theorem VirtualRoot.marker_append_inj {root root' : VirtualRoot} {rest rest' : String}
    (h : root.marker ++ rest = root'.marker ++ rest') : root = root' ∧ rest = rest' := by
  have hsplit := (split?_eq_some_iff _ root' rest').mpr h
  rw [split?_marker] at hsplit
  exact Prod.mk.inj (Option.some.inj hsplit)

theorem isPlain_iff (path : String) : IsPlain path ↔ VirtualRoot.split? path = none := by
  rw [Option.eq_none_iff_forall_ne_some, Prod.forall]
  exact forall₂_congr fun root rest =>
    not_congr (VirtualRoot.split?_eq_some_iff path root rest).symm

theorem isPlain_or_marker (path : String) :
    IsPlain path ∨ ∃ root rest, path = VirtualRoot.marker root ++ rest := by
  by_cases h : ∃ root rest, path = VirtualRoot.marker root ++ rest
  · exact .inr h
  · exact .inl fun root rest heq => h ⟨root, rest, heq⟩

theorem not_isPlain_marker (root : VirtualRoot) (rest : String) :
    ¬IsPlain (root.marker ++ rest) := fun h => h root rest rfl

theorem head?_marker (root : VirtualRoot) (rest : String) :
    (root.marker ++ rest).toList.head? ≠ some '/' := by
  cases root <;> simp [VirtualRoot.marker, String.toList_append]

/-- What starts with a slash does not start with a marker. -/
theorem isPlain_of_slash {path : String} (h : path.toList.head? = some '/') : IsPlain path := by
  rintro root rest rfl
  exact head?_marker root rest h

theorem IsPlain.isVirtual_eq_false {path : String} (h : IsPlain path) : isVirtual path = false := by
  rw [isVirtual, (isPlain_iff path).mp h, Option.isSome_none]

/-! ## What is made normal -/

/-- The location of the current folder. -/
def Host.here (host : Host) : Location := ⟨.root, host.current⟩

namespace Settings

variable (settings : Settings) (host : Host)

/-- The path that has to be made normal for the location of a path. -/
inductive Target : String → String → Prop
  | virtual (root : VirtualRoot) (rest : String) :
      Target (root.marker ++ rest)
        (joined host.here.text (joined (settings.folder root).text rest))
  | plain {path : String} (h : IsPlain path) : Target path (joined host.here.text path)

theorem exists_target (path : String) : ∃ target, settings.Target host path target := by
  obtain hplain | ⟨root, rest, rfl⟩ := isPlain_or_marker path
  · exact ⟨_, .plain hplain⟩
  · exact ⟨_, .virtual root rest⟩

variable {settings host}

theorem locate_marker (root : VirtualRoot) (rest : String) :
    settings.locate host (root.marker ++ rest) = settings.locateVirtual host root rest := by
  rw [locate, VirtualRoot.split?_marker]

theorem locate_plain {path : String} (h : IsPlain path) :
    settings.locate host path = locatePlain host path := by
  rw [locate, (isPlain_iff path).mp h]

theorem Target.unique {path target other : String} (h : settings.Target host path target)
    (hother : settings.Target host path other) : other = target := by
  cases h with
  | virtual root rest =>
    generalize hpath : root.marker ++ rest = path at hother
    cases hother with
    | virtual root' rest' =>
      obtain ⟨rfl, rfl⟩ := VirtualRoot.marker_append_inj hpath
      rfl
    | plain hplain => exact absurd hpath.symm (hplain root rest)
  | plain hplain =>
    cases hother with
    | virtual root rest => exact absurd hplain (not_isPlain_marker root rest)
    | plain => rfl

/-- Whichever way a path goes, its location has the names of the one path to be made normal. -/
theorem Target.parts_locate {path target : String} (h : settings.Target host path target) :
    (settings.locate host path).parts =
      Location.collapse (Location.partsOf target.toList) := by
  cases h with
  | virtual root rest =>
    have htarget : Location.ofString
        (joined host.here.text (joined (settings.folder root).text rest)) =
        host.here.under ((settings.folder root).under (.ofString rest)) := by
      rw [Location.ofString_joined_text, Location.ofString_joined_text]
    rw [locate_marker]
    exact congrArg (fun l => Location.collapse l.parts) htarget.symm
  | plain hplain =>
    have htarget := Location.ofString_joined_text host.here path
    rw [locate_plain hplain]
    exact congrArg (fun l => Location.collapse l.parts) htarget.symm

/-! ## Anchors -/

/-- A location keeps two slashes in front for a path that starts with exactly two, and for no
other. -/
theorem locate_anchor (settings : Settings) (host : Host) (path : String) :
    (settings.locate host path).anchor =
      if Anchor.ofChars path.toList = .doubleRoot then .doubleRoot else .root := by
  obtain hplain | ⟨root, rest, rfl⟩ := isPlain_or_marker path
  · have hanchor : (settings.locate host path).anchor =
        (host.here.under (.ofString path)).anchor := by
      rw [locate_plain hplain]
      rfl
    rw [hanchor, Location.under, Location.ofString, Location.isAbsolute]
    cases Anchor.ofChars path.toList <;> rfl
  · have hrelative : Anchor.ofChars (root.marker ++ rest).toList = .relative :=
      not_not.mp (mt (Anchor.ofChars_ne_relative_iff _).mp (head?_marker root rest))
    rw [locate_marker, hrelative]
    rfl

theorem locate_anchor_ne_relative (settings : Settings) (host : Host) (path : String) :
    (settings.locate host path).anchor ≠ .relative := by
  rw [locate_anchor]
  split <;> exact Anchor.noConfusion

end Settings

/-! ## Normal locations -/

/-- A location that starts at the root and has names only. -/
structure Location.IsNormal (l : Location) : Prop where
  absolute : l.anchor ≠ .relative
  no_up : ∀ part ∈ l.parts, part ≠ .up

namespace Settings

theorem isNormal_locate (settings : Settings) (host : Host) (path : String) :
    (settings.locate host path).IsNormal := by
  refine ⟨locate_anchor_ne_relative settings host path, ?_⟩
  obtain ⟨target, htarget⟩ := settings.exists_target host path
  rw [htarget.parts_locate]
  exact Location.ne_up_of_mem_collapse

end Settings

namespace Location.IsNormal

variable {l : Location}

theorem toList_text (h : l.IsNormal) :
    l.text.toList =
      List.replicate l.anchor.slashes '/' ++ Text.join '/' (l.parts.map Part.chars) :=
  Location.toList_text fun hpoint => h.absolute hpoint.1

theorem isAbsolute (h : l.IsNormal) : l.isAbsolute = true := by
  rw [Location.isAbsolute, bne_iff_ne]
  exact h.absolute

theorem isPlain_text (h : l.IsNormal) : IsPlain l.text := by
  apply isPlain_of_slash
  rw [← isAbsolute_ofString, ofString_text]
  exact h.isAbsolute

/-- A normal location is found from its text, whatever the settings and the current folder. -/
theorem locate_text (h : l.IsNormal) (settings : Settings) (host : Host) :
    settings.locate host l.text = l := by
  rw [Settings.locate_plain h.isPlain_text, locatePlain, ofString_text, normal,
    Location.absolute, under, if_pos h.isAbsolute, collapse_of_no_up h.no_up]

/-- No slash stands behind the last name. -/
theorem getLast?_text (h : l.IsNormal) (hparts : l.parts ≠ []) :
    l.text.toList.getLast? ≠ some '/' := by
  obtain ⟨c, hlast, hc⟩ := getLast?_join_chars hparts
  rw [h.toList_text, List.getLast?_append, hlast, Option.some_or]
  exact fun heq => hc (Option.some.inj heq)

end Location.IsNormal

end CutsceneCatalog
