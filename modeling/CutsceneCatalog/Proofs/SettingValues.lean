import CutsceneCatalog.Proofs.Outcome
import CutsceneCatalog.Settings.Reading

/-!
# Settings from given values

A value fits a field if it can be converted to the field's kind; a greatest depth also has to be one
at least.  If every value that is given fits, there are settings, with what each value is converted
to in its field and the standard in every field without one (`Settings.ofValues_eq_ok`).  Otherwise
the faults are exactly those of the values that do not fit, in the order of the fields
(`Settings.ofValues_eq_error`).  All this holds whatever the conversions do.
-/

namespace CutsceneCatalog

/-! ## Values of fields -/

/-- Whether a value can set a field. -/
def SettingField.Fits (libraries : Libraries) : SettingField → Value → Prop
  | .projectRoot, v | .userFolder, v => ∃ l, libraries.toPath v = .ok l
  | .maxRuleDepth, v => ∃ n, libraries.toWhole v = .ok n ∧ 1 ≤ n
  | .definitionGlob, v => ∃ s, libraries.toText v = .ok s

namespace Settings

/-- A field of the settings is what a value is converted to. -/
def Holds (libraries : Libraries) (settings : Settings) : SettingField → Value → Prop
  | .projectRoot, v => libraries.toPath v = .ok settings.projectRoot
  | .userFolder, v => libraries.toPath v = .ok settings.userFolder
  | .maxRuleDepth, v => libraries.toWhole v = .ok settings.maxRuleDepth
  | .definitionGlob, v => libraries.toText v = .ok settings.definitionGlob

/-- Settings that are the same in one field. -/
def AgreeAt (settings other : Settings) : SettingField → Prop
  | .projectRoot => settings.projectRoot = other.projectRoot
  | .userFolder => settings.userFolder = other.userFolder
  | .maxRuleDepth => settings.maxRuleDepth = other.maxRuleDepth
  | .definitionGlob => settings.definitionGlob = other.definitionGlob

end Settings

section

variable {libraries : Libraries} {v : Value}

theorem Libraries.folder_eq_ok_iff {l : Location} :
    libraries.folder v = .ok l ↔ libraries.toPath v = .ok l := mapError_eq_ok_iff

theorem Libraries.pattern_eq_ok_iff {s : String} :
    libraries.pattern v = .ok s ↔ libraries.toText v = .ok s := mapError_eq_ok_iff

theorem Libraries.depth_eq_ok_iff {n : { n : Int // 1 ≤ n }} :
    libraries.depth v = .ok n ↔ libraries.toWhole v = .ok n.val := by
  unfold depth
  cases libraries.toWhole v with
  | error kind => simp
  | ok m =>
    dsimp only
    split
    · simp [Subtype.ext_iff]
    · next hlow =>
      simp only [reduceCtorEq, Except.ok.injEq, false_iff]
      rintro rfl
      exact hlow n.property

end

/-- The fault that a value has in a field, if it does not fit. -/
def SettingField.fault? (libraries : Libraries) (field : SettingField) (v : Value) :
    Option (SettingField × SettingFault) :=
  match field with
  | .projectRoot | .userFolder => faultOf field (libraries.folder v)
  | .maxRuleDepth => faultOf field (libraries.depth v)
  | .definitionGlob => faultOf field (libraries.pattern v)

section

variable {α : Type} {field : SettingField} {value : Option Value}
  {read : Value → Except SettingFault α} {standard a : α}

theorem faultOf_eq_none_iff {result : Except SettingFault α} :
    faultOf field result = none ↔ ∃ a, result = .ok a := by
  cases result <;> simp [faultOf]

theorem fst_of_faultOf_eq_some {result : Except SettingFault α}
    {entry : SettingField × SettingFault} (h : faultOf field result = some entry) :
    entry.1 = field := by
  cases result with
  | ok a => cases h
  | error fault =>
    obtain rfl := Option.some.inj h
    rfl

theorem faultOf_settingOr :
    faultOf field (settingOr value read standard) = value.bind fun v => faultOf field (read v) := by
  cases value <;> rfl

theorem settingOr_eq_ok (h : settingOr value read standard = .ok a) :
    (∀ v, value = some v → read v = .ok a) ∧ (value = none → a = standard) := by
  constructor
  · rintro v rfl
    exact h
  · rintro rfl
    exact (Except.ok.inj h).symm

end

theorem SettingField.fault?_eq_none_iff {libraries : Libraries} {field : SettingField}
    {v : Value} : field.fault? libraries v = none ↔ field.Fits libraries v := by
  cases field with
  | projectRoot | userFolder =>
    simp only [fault?, faultOf_eq_none_iff, Libraries.folder_eq_ok_iff, Fits]
  | maxRuleDepth =>
    simp only [fault?, faultOf_eq_none_iff, Libraries.depth_eq_ok_iff, Fits]
    exact ⟨fun ⟨n, h⟩ => ⟨n, h, n.property⟩, fun ⟨n, h, hlow⟩ => ⟨⟨n, hlow⟩, h⟩⟩
  | definitionGlob =>
    simp only [fault?, faultOf_eq_none_iff, Libraries.pattern_eq_ok_iff, Fits]

theorem SettingField.fst_of_fault?_eq_some {libraries : Libraries} {field : SettingField}
    {v : Value} {entry : SettingField × SettingFault}
    (h : field.fault? libraries v = some entry) : entry.1 = field := by
  cases field <;> exact fst_of_faultOf_eq_some h

namespace Settings

variable {host : Host} {libraries : Libraries} {given : SettingField → Option Value}

/-- The faults of all values, in the order of the fields. -/
def faultsOf (libraries : Libraries) (given : SettingField → Option Value) : SettingFaults :=
  SettingField.all.filterMap fun field => (given field).bind (field.fault? libraries)

theorem faults_eq_faultsOf (host : Host) (given : SettingField → Option Value) :
    let standard := Settings.standard host
    let libraries := host.libraries
    [faultOf .projectRoot (settingOr (given .projectRoot) libraries.folder standard.projectRoot),
      faultOf .userFolder (settingOr (given .userFolder) libraries.folder standard.userFolder),
      faultOf .maxRuleDepth (settingOr (given .maxRuleDepth) libraries.depth
        ⟨standard.maxRuleDepth, standard.one_le_depth⟩),
      faultOf .definitionGlob
        (settingOr (given .definitionGlob) libraries.pattern standard.definitionGlob)].filterMap
          id =
      faultsOf libraries given := by
  simp only [faultOf_settingOr]
  rfl

theorem mem_faultsOf_iff {field : SettingField} :
    field ∈ (faultsOf libraries given).map Prod.fst ↔
      ∃ v, given field = some v ∧ ¬ field.Fits libraries v := by
  rw [List.mem_map]
  constructor
  · rintro ⟨entry, hentry, rfl⟩
    obtain ⟨field, -, hfield⟩ := List.mem_filterMap.mp hentry
    obtain ⟨v, hv, hfault⟩ := Option.bind_eq_some_iff.mp hfield
    rw [SettingField.fst_of_fault?_eq_some hfault]
    refine ⟨v, hv, fun hfits => ?_⟩
    rw [SettingField.fault?_eq_none_iff.mpr hfits] at hfault
    cases hfault
  · rintro ⟨v, hv, hfits⟩
    rw [← SettingField.fault?_eq_none_iff, ← ne_eq, Option.ne_none_iff_exists'] at hfits
    obtain ⟨entry, hfault⟩ := hfits
    have hmem : field ∈ SettingField.all := by cases field <;> decide
    refine ⟨entry, List.mem_filterMap.mpr ⟨field, hmem, ?_⟩,
      SettingField.fst_of_fault?_eq_some hfault⟩
    rw [hv]
    exact hfault

theorem sublist_faultsOf (libraries : Libraries) (given : SettingField → Option Value) :
    ((faultsOf libraries given).map Prod.fst).Sublist SettingField.all := by
  unfold faultsOf
  induction SettingField.all with
  | nil => exact .slnil
  | cons field rest ih =>
    rw [List.filterMap_cons]
    cases hfault : (given field).bind (field.fault? libraries) with
    | none => exact ih.cons field
    | some entry =>
      obtain ⟨v, -, hv⟩ := Option.bind_eq_some_iff.mp hfault
      rw [List.map_cons, SettingField.fst_of_fault?_eq_some hv]
      exact ih.cons_cons field

/-- Faults are those of the values that do not fit, and there are some. -/
theorem ofValues_eq_error {faults : SettingFaults} (h : ofValues host given = .error faults) :
    faults = faultsOf host.libraries given ∧ faults ≠ [] := by
  unfold ofValues at h
  rw [← faults_eq_faultsOf host]
  dsimp only at h ⊢
  split at h
  · cases h
  · next hnotAll =>
    obtain rfl := Except.error.inj h
    refine ⟨rfl, fun hnil => ?_⟩
    simp only [List.filterMap_eq_nil_iff, List.mem_cons, List.not_mem_nil, or_false, id_eq,
      forall_eq_or_imp, forall_eq, faultOf_eq_none_iff] at hnil
    obtain ⟨⟨root, hroot⟩, ⟨user, huser⟩, ⟨depth, hdepth⟩, glob, hglob⟩ := hnil
    exact hnotAll _ _ _ _ hroot huser hdepth hglob

/-- If there are settings, every value fits, and its field is what it is converted to; a field
without a value has its standard. -/
theorem ofValues_eq_ok {settings : Settings} (h : ofValues host given = .ok settings)
    (field : SettingField) :
    (∀ v, given field = some v →
        field.Fits host.libraries v ∧ settings.Holds host.libraries field v) ∧
      (given field = none → settings.AgreeAt (.standard host) field) := by
  unfold ofValues at h
  dsimp only at h
  split at h
  · next root user depth glob hroot huser hdepth hglob =>
    obtain rfl := Except.ok.inj h
    have hroot := settingOr_eq_ok hroot
    have huser := settingOr_eq_ok huser
    have hdepth := settingOr_eq_ok hdepth
    have hglob := settingOr_eq_ok hglob
    cases field with
    | projectRoot =>
      refine ⟨fun v hv => ?_, hroot.2⟩
      have hholds := Libraries.folder_eq_ok_iff.mp (hroot.1 v hv)
      exact ⟨⟨root, hholds⟩, hholds⟩
    | userFolder =>
      refine ⟨fun v hv => ?_, huser.2⟩
      have hholds := Libraries.folder_eq_ok_iff.mp (huser.1 v hv)
      exact ⟨⟨user, hholds⟩, hholds⟩
    | maxRuleDepth =>
      refine ⟨fun v hv => ?_, fun hnone => congrArg Subtype.val (hdepth.2 hnone)⟩
      have hholds := Libraries.depth_eq_ok_iff.mp (hdepth.1 v hv)
      exact ⟨⟨depth, hholds, depth.property⟩, hholds⟩
    | definitionGlob =>
      refine ⟨fun v hv => ?_, hglob.2⟩
      have hholds := Libraries.pattern_eq_ok_iff.mp (hglob.1 v hv)
      exact ⟨⟨glob, hholds⟩, hholds⟩
  · cases h

end Settings

end CutsceneCatalog
