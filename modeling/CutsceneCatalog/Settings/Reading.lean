import CutsceneCatalog.Settings

/-!
# Reading settings

Settings from given values: a field without a value has its standard, and a value that cannot be
converted to the field's kind is a fault.  So is a greatest rule depth below one.  All faults are
reported, in the order of the fields.
-/

namespace CutsceneCatalog

/-- The fields of the settings. -/
inductive SettingField
  | projectRoot
  | userFolder
  | maxRuleDepth
  | definitionGlob
deriving DecidableEq, Repr

namespace SettingField

/-- All fields, in their order. -/
def all : List SettingField := [projectRoot, userFolder, maxRuleDepth, definitionGlob]

/-- The name of a field in a settings file. -/
def name : SettingField → String
  | projectRoot => "project_root"
  | userFolder => "user_dir"
  | maxRuleDepth => "max_rule_depth"
  | definitionGlob => "definition_glob"

/-- The environment variable that sets a field. -/
def variableName : SettingField → String
  | projectRoot => "CUTSCENE_PROJECT_ROOT"
  | userFolder => "CUTSCENE_USER_DIR"
  | maxRuleDepth => "CUTSCENE_MAX_RULE_DEPTH"
  | definitionGlob => "CUTSCENE_DEFINITION_GLOB"

end SettingField

/-- Why a value does not set a field. -/
inductive SettingFault
  /-- The value cannot be converted, for an error of the given kind. -/
  | unfit (kind : String)
  | belowOne
deriving DecidableEq, Repr

/-- The kind of the error that a fault is. -/
def SettingFault.kind : SettingFault → String
  | .unfit kind => kind
  | .belowOne => "value_error"

/-- The faults of several fields. -/
abbrev SettingFaults := List (SettingField × SettingFault)

/-! ## Conversion -/

namespace Libraries

/-- A value as the location of a folder. -/
def folder (libraries : Libraries) (v : Value) : Except SettingFault Location :=
  (libraries.toPath v).mapError .unfit

/-- A value as a pattern of file names, which is any text. -/
def pattern (libraries : Libraries) (v : Value) : Except SettingFault String :=
  (libraries.toText v).mapError .unfit

/-- A value as a greatest depth, which is one at least. -/
def depth (libraries : Libraries) (v : Value) : Except SettingFault { n : Int // 1 ≤ n } :=
  match libraries.toWhole v with
  | .error kind => .error (.unfit kind)
  | .ok n => if h : 1 ≤ n then .ok ⟨n, h⟩ else .error .belowOne

end Libraries

/-! ## Settings -/

/-- What a field is set to: its value read, or its standard if it has none. -/
def settingOr {α : Type} (value : Option Value) (read : Value → Except SettingFault α)
    (standard : α) : Except SettingFault α :=
  match value with
  | none => .ok standard
  | some v => read v

/-- The fault of a field, if it has one. -/
def faultOf {α : Type} (field : SettingField) :
    Except SettingFault α → Option (SettingField × SettingFault)
  | .ok _ => none
  | .error fault => some (field, fault)

/-- The settings that values give, or the faults of all of them. -/
def Settings.ofValues (host : Host) (given : SettingField → Option Value) :
    Except SettingFaults Settings :=
  let standard := Settings.standard host
  let libraries := host.libraries
  let root := settingOr (given .projectRoot) libraries.folder standard.projectRoot
  let user := settingOr (given .userFolder) libraries.folder standard.userFolder
  let depth := settingOr (given .maxRuleDepth) libraries.depth
    ⟨standard.maxRuleDepth, standard.one_le_depth⟩
  let glob := settingOr (given .definitionGlob) libraries.pattern standard.definitionGlob
  match root, user, depth, glob with
  | .ok root, .ok user, .ok depth, .ok glob => .ok ⟨root, user, depth.val, glob, depth.property⟩
  | root, user, depth, glob =>
      .error ([faultOf .projectRoot root, faultOf .userFolder user, faultOf .maxRuleDepth depth,
        faultOf .definitionGlob glob].filterMap id)

end CutsceneCatalog
