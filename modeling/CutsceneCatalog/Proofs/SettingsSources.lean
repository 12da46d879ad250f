import CutsceneCatalog.Proofs.ValueConversion
import CutsceneCatalog.Proofs.VariableOverlay
import CutsceneCatalog.Settings.Session

/-!
# Where settings come from

Four sources decide the settings of an environment: the variables of the process, the environment's
file of assignments, its section of the settings file, and the standards.  `Settings.Sources` says
what stands in the two files, including that they may be absent, empty or without the section.

The main statement is `Settings.find_of_sources`.  The assignments are laid over the variables, if
an environment can hold them all.  Then each field by itself is what its variable says, else what
the section says unless that is null, else its standard; and if some of these values do not fit
their fields, the fields named are exactly those (`Settings.Settled`).  Nothing else has a part in
it: not the other sections, not the other variables, not the name of the environment.

What a settings file and a text of assignments say, and what a value is converted to, is up to the
libraries of the host, and the statement holds for any.  Only what becomes of plain values needs
conversions that do as they are documented (`Libraries.Documented`).
-/

namespace CutsceneCatalog

/-! ## What stands in the files -/

/-- What a text assigns to the names that it gives a value. -/
def Libraries.assigned (libraries : Libraries) (vars : Variables) (cs : List Char) :
    List (String × String) :=
  Variables.values (libraries.assignments vars cs)

section

variable (files : Files) (host : Host)

/-- The text that a file holds. -/
def HoldsText (path : Location) (cs : List Char) : Prop :=
  ∃ bs, files.read host.current path = .ok (.bytes bs) ∧ Text.utf8 bs = .ok cs

/-- The assignments that are made for an environment with its own file at a location, for given
variables: those of the text there.  If nothing stands there, they are those of the fallback, if
there is one, and a folder makes none. -/
inductive AssignmentsAt (path : Location) (vars : Variables) : List (String × String) → Prop
  | text {cs : List Char} (holds : HoldsText files host path cs) :
      AssignmentsAt path vars (host.libraries.assigned vars (Text.unifyBreaks cs))
  | folder (unread : files.read host.current path = .error .isAFolder) : AssignmentsAt path vars []
  | absent {fault : FileFault} (unread : files.read host.current path = .error fault)
      (missing : fault = .missing ∨ fault = .notAFolder)
      (alone : host.libraries.fallback files = none) : AssignmentsAt path vars []
  | fallback {fault : FileFault} {other : Location} {cs : List Char}
      (unread : files.read host.current path = .error fault)
      (missing : fault = .missing ∨ fault = .notAFolder)
      (found : host.libraries.fallback files = some other) (holds : HoldsText files host other cs) :
      AssignmentsAt path vars (host.libraries.assigned vars (Text.unifyBreaks cs))

/-- The entries that a value has where a mapping is expected: those of a mapping, and none if there
is no value or a void one. -/
inductive EntriesOf : Option Value → List (Value × Value) → Prop
  | absent : EntriesOf none []
  | void {v : Value} (void : v.isVoid = true) : EntriesOf (some v) []
  | mapping (entries : List (Value × Value)) : EntriesOf (some (.map entries)) entries

/-- The sections that stand at a location: those of a settings file, and none if there is no file or
an empty one. -/
inductive SectionsAt (path : Location) : List (Value × Value) → Prop
  | absent {fault : FileFault} (unread : files.read host.current path = .error fault)
      (missing : fault = .missing ∨ fault = .notAFolder) : SectionsAt path []
  | empty (read : files.read host.current path = .ok (.bytes []))
      (documented : host.libraries.Documented) : SectionsAt path []
  | document {bs : List UInt8} {v : Value} {sections : List (Value × Value)}
      (read : files.read host.current path = .ok (.bytes bs))
      (parsed : host.libraries.valueOf bs = .ok v) (entries : EntriesOf (some v) sections) :
      SectionsAt path sections

/-- What the two files say about an environment: the assignments of its own file, and the fields of
its section of the settings file. -/
structure Settings.Sources (place : SettingsPlace) (environment : String) (vars : Variables)
    (assignments : List (String × String)) (fields : List (Value × Value)) : Prop where
  known : environment ∈ environments
  assigned : AssignmentsAt files host (place.assignments environment) vars assignments
  sectioned : ∃ sections, SectionsAt files host place.file sections ∧
    EntriesOf (Value.entry? sections environment) fields

end

section

variable {files : Files} {host : Host}

theorem EntriesOf.sections_eq {v : Value} {entries : List (Value × Value)}
    (h : EntriesOf (some v) entries) : v.sections = .ok entries := by
  unfold Value.sections
  cases h with
  | void hvoid => rw [if_pos hvoid]
  | mapping =>
    split
    · next hvoid => rw [List.isEmpty_iff.mp hvoid]
    · rfl

theorem EntriesOf.sectionFields_eq {sections fields : List (Value × Value)} {name : String}
    (h : EntriesOf (Value.entry? sections name) fields) :
    sectionFields sections name = .ok fields := by
  unfold sectionFields
  generalize Value.entry? sections name = v at h
  cases v with
  | none =>
    cases h
    rfl
  | some v => exact h.sections_eq

theorem SectionsAt.settingsSections_eq {path : Location} {sections : List (Value × Value)}
    (h : SectionsAt files host path sections) :
    settingsSections files host path = .ok sections := by
  unfold settingsSections
  cases h with
  | absent hunread hmissing =>
    rw [hunread]
    rcases hmissing with rfl | rfl <;> rfl
  | empty hread hdocumented =>
    rw [hread]
    dsimp only
    rw [hdocumented.valueOf_nil]
    rfl
  | document hread hparsed hentries =>
    rw [hread]
    dsimp only
    rw [hparsed]
    exact hentries.sections_eq

theorem HoldsText.exists_content {path : Location} {cs : List Char}
    (h : HoldsText files host path cs) : ∃ content, files.read host.current path = .ok content ∧
      content.assignments = .ok (Text.unifyBreaks cs) := by
  obtain ⟨bs, hread, hdecoded⟩ := h
  refine ⟨.bytes bs, hread, ?_⟩
  unfold Content.assignments
  dsimp only
  rw [hdecoded]

/-- Assignments are those of the text that is found, and there are none without a text. -/
theorem AssignmentsAt.assignmentsText_eq {path : Location} {vars : Variables}
    {assignments : List (String × String)} (h : AssignmentsAt files host path vars assignments) :
    ∃ text, assignmentsText files host path = .ok text ∧
      assignments = text.elim [] (host.libraries.assigned vars) := by
  unfold assignmentsText
  cases h with
  | text hholds =>
    obtain ⟨content, hread, hcontent⟩ := hholds.exists_content
    rw [hread]
    dsimp only
    rw [hcontent]
    exact ⟨_, rfl, rfl⟩
  | folder hunread =>
    rw [hunread]
    exact ⟨none, rfl, rfl⟩
  | absent hunread hmissing halone =>
    rw [hunread, halone]
    rcases hmissing with rfl | rfl <;> exact ⟨none, rfl, rfl⟩
  | fallback hunread hmissing hfound hholds =>
    obtain ⟨content, hread, hcontent⟩ := hholds.exists_content
    rw [hunread, hfound, Option.map_some, hread]
    rcases hmissing with rfl | rfl <;>
    · dsimp only
      rw [hcontent]
      exact ⟨_, rfl, rfl⟩

/-- Settings are found in two steps: the assignments are laid over the variables, and if that can be
done, the values chosen for the fields are read. -/
theorem Settings.Sources.find_fst {place : SettingsPlace} {environment : String}
    {vars : Variables} {assignments : List (String × String)} {fields : List (Value × Value)}
    (h : Sources files host place environment vars assignments fields) :
    (find host files place environment vars).1 =
      match assignments.findSome? Variables.fault? with
      | some fault => .error (.unassignable fault)
      | none =>
          (ofValues host (chosenValue (vars.setAll assignments) fields)).mapError .invalid := by
  obtain ⟨hknown, hassigned, sections, hsections, hfields⟩ := h
  have hchosen (vars : Variables) : chosenSettings host files vars place.file environment =
      (ofValues host (chosenValue vars fields)).mapError .invalid := by
    unfold chosenSettings
    rw [hsections.settingsSections_eq]
    dsimp only [bind, Except.bind]
    rw [hfields.sectionFields_eq]
    dsimp only [bind, Except.bind]
    cases ofValues host (chosenValue vars fields) <;> rfl
  obtain ⟨text, htext, rfl⟩ := hassigned.assignmentsText_eq
  unfold find
  rw [if_pos (List.contains_iff_mem.mpr hknown), htext]
  cases text with
  | none => exact hchosen vars
  | some cs =>
    dsimp only [Option.elim]
    rw [Variables.assignAll_eq, ← Libraries.assigned]
    cases hfault : (host.libraries.assigned vars cs).findSome? Variables.fault? with
    | some fault => rfl
    | none =>
      rw [Variables.held_eq_self hfault]
      exact hchosen _

end

/-! ## The value that a field gets -/

/-- The value that counts for a field: its variable's text, even if it is empty, else what the
section has, unless that is null. -/
inductive Chosen (vars : Variables) (fields : List (Value × Value)) (field : SettingField) :
    Value → Prop
  | variable {text : String} (set : vars.get? field.variableName = some text) :
      Chosen vars fields field (.text text)
  | entry {v : Value} (unset : vars.get? field.variableName = none)
      (found : Value.entry? fields field.name = some v) (proper : v ≠ .null) :
      Chosen vars fields field v

theorem chosenValue_eq_some_iff {vars : Variables} {fields : List (Value × Value)}
    {field : SettingField} {v : Value} :
    chosenValue vars fields field = some v ↔ Chosen vars fields field v := by
  unfold chosenValue
  cases hset : vars.get? field.variableName with
  | some text =>
    constructor
    · rintro ⟨⟩
      exact .variable hset
    · rintro (hsome | ⟨hunset, -, -⟩)
      · rw [hset] at hsome
        rw [Option.some.inj hsome]
      · rw [hset] at hunset
        cases hunset
  | none =>
    dsimp only
    constructor
    · intro h
      split at h
      · cases h
      · cases h
      · next w hnull hfound =>
        obtain rfl := Option.some.inj h
        exact .entry hset hfound hnull
    · rintro (hsome | ⟨-, hfound, hproper⟩)
      · rw [hset] at hsome
        cases hsome
      · rw [hfound]
        cases v <;> first | rfl | exact absurd rfl hproper

theorem chosenValue_congr {vars other : Variables} {fields fields' : List (Value × Value)}
    {field : SettingField}
    (hvars : vars.get? field.variableName = other.get? field.variableName)
    (hfields : Value.entry? fields field.name = Value.entry? fields' field.name) :
    chosenValue vars fields field = chosenValue other fields' field := by
  unfold chosenValue
  rw [hvars, hfields]

/-- What comes of the values chosen for the fields: settings in which every field is what its value
is converted to or its standard, if all of them fit, and otherwise an error that names exactly the
fields whose values do not.  Where conversions do as documented, fields show the plain values that
they take, and a field with a plain value that it refuses is named. -/
structure Settings.Settled (host : Host) (vars : Variables) (fields : List (Value × Value))
    (outcome : Except SettingsError Settings) : Prop where
  of_fits : (∀ field v, Chosen vars fields field v → field.Fits host.libraries v) →
    ∃ settings, outcome = .ok settings ∧ 1 ≤ settings.maxRuleDepth ∧
      ∀ field, (∀ v, Chosen vars fields field v → settings.Holds host.libraries field v) ∧
        ((∀ v, ¬ Chosen vars fields field v) → settings.AgreeAt (.standard host) field)
  of_unfit : (∃ field v, Chosen vars fields field v ∧ ¬ field.Fits host.libraries v) →
    ∃ faults, outcome = .error (.invalid faults) ∧
      (faults.map Prod.fst).Sublist SettingField.all ∧
      ∀ field, field ∈ faults.map Prod.fst ↔
        ∃ v, Chosen vars fields field v ∧ ¬ field.Fits host.libraries v
  of_takes : host.libraries.Documented → (∀ field v, Chosen vars fields field v → field.Takes v) →
    ∃ settings, outcome = .ok settings ∧
      ∀ field v, Chosen vars fields field v → settings.Shows field v
  of_refuses : host.libraries.Documented → ∀ field v, Chosen vars fields field v →
    field.Refuses v → ∃ faults, outcome = .error (.invalid faults) ∧ field ∈ faults.map Prod.fst

namespace Settings

variable {files : Files} {host : Host} {place : SettingsPlace} {environment : String}
  {vars : Variables} {assignments : List (String × String)} {fields : List (Value × Value)}

/-- With settings, all chosen values fit, and with faults, they are those of the values that do
not. -/
theorem ofValues_chosenValue (host : Host) (vars : Variables) (fields : List (Value × Value)) :
    (∃ settings, ofValues host (chosenValue vars fields) = .ok settings ∧
      ∀ field,
        (∀ v, Chosen vars fields field v →
          field.Fits host.libraries v ∧ settings.Holds host.libraries field v) ∧
        ((∀ v, ¬ Chosen vars fields field v) → settings.AgreeAt (.standard host) field)) ∨
    ∃ faults, ofValues host (chosenValue vars fields) = .error faults ∧
      (∃ field v, Chosen vars fields field v ∧ ¬ field.Fits host.libraries v) ∧
      (faults.map Prod.fst).Sublist SettingField.all ∧
      ∀ field, field ∈ faults.map Prod.fst ↔
        ∃ v, Chosen vars fields field v ∧ ¬ field.Fits host.libraries v := by
  cases h : ofValues host (chosenValue vars fields) with
  | ok settings =>
    have hfield := ofValues_eq_ok h
    refine .inl ⟨settings, rfl, fun field => ⟨?_, ?_⟩⟩
    · exact fun v hv => (hfield field).1 v (chosenValue_eq_some_iff.mpr hv)
    · intro hnone
      refine (hfield field).2 (Option.eq_none_iff_forall_ne_some.mpr fun v hv => ?_)
      exact hnone v (chosenValue_eq_some_iff.mp hv)
  | error faults =>
    obtain ⟨rfl, hne⟩ := ofValues_eq_error h
    have hnamed (field : SettingField) :
        field ∈ (faultsOf host.libraries (chosenValue vars fields)).map Prod.fst ↔
          ∃ v, Chosen vars fields field v ∧ ¬ field.Fits host.libraries v := by
      simp only [mem_faultsOf_iff, chosenValue_eq_some_iff]
    obtain ⟨entry, hentry⟩ := List.exists_mem_of_ne_nil _ hne
    have hunfit := (hnamed _).mp (List.mem_map_of_mem hentry)
    exact .inr ⟨_, rfl, ⟨_, hunfit⟩, sublist_faultsOf _ _, hnamed⟩

theorem settled_ofValues (host : Host) (vars : Variables) (fields : List (Value × Value)) :
    Settled host vars fields
      ((ofValues host (chosenValue vars fields)).mapError .invalid) := by
  obtain ⟨settings, hok, hfield⟩ | ⟨faults, herror, ⟨field, v, hv, hunfit⟩, hsublist, hnamed⟩ :=
    ofValues_chosenValue host vars fields
  · rw [hok]
    have hfits (field : SettingField) (v : Value) (hv : Chosen vars fields field v) :=
      ((hfield field).1 v hv).1
    have hholds (field : SettingField) (v : Value) (hv : Chosen vars fields field v) :=
      ((hfield field).1 v hv).2
    refine ⟨fun _ => ⟨settings, rfl, settings.one_le_depth, fun field => ?_⟩, ?_, ?_, ?_⟩
    · exact ⟨hholds field, (hfield field).2⟩
    · rintro ⟨field, v, hv, hunfit⟩
      exact absurd (hfits field v hv) hunfit
    · intro hdocumented htakes
      exact ⟨settings, rfl, fun field v hv =>
        hdocumented.shows (htakes field v hv) (hholds field v hv)⟩
    · intro hdocumented field v hv hrefuses
      exact absurd (hfits field v hv) (hdocumented.not_fits hrefuses)
  · rw [herror]
    refine ⟨fun hfits => ?_, fun _ => ⟨faults, rfl, hsublist, hnamed⟩, ?_, ?_⟩
    · exact absurd (hfits field v hv) hunfit
    · intro hdocumented htakes
      exact absurd (hdocumented.fits (htakes field v hv)) hunfit
    · intro hdocumented field v hv hrefuses
      exact ⟨faults, rfl, (hnamed field).mpr ⟨v, hv, hdocumented.not_fits hrefuses⟩⟩

/-- If an environment can hold the assignments of a file, the settings are settled by the variables
with the assignments laid over them and the fields of the section, and whatever finds settings from
the same of both finds the same settings.  Otherwise the first assignment that cannot be held is an
error. -/
theorem find_of_sources (h : Sources files host place environment vars assignments fields) :
    (∀ fault, assignments.findSome? Variables.fault? = some fault →
      (find host files place environment vars).1 = .error (.unassignable fault)) ∧
    ((∀ assignment ∈ assignments, Variables.Holdable assignment) →
      Settled host (vars.setAll assignments) fields (find host files place environment vars).1 ∧
      ∀ {files' : Files} {place' : SettingsPlace} {environment' : String} {vars' : Variables}
        {assignments' : List (String × String)} {fields' : List (Value × Value)},
        Sources files' host place' environment' vars' assignments' fields' →
        (∀ assignment ∈ assignments', Variables.Holdable assignment) →
        (∀ field : SettingField, (vars'.setAll assignments').get? field.variableName =
          (vars.setAll assignments).get? field.variableName) →
        (∀ field : SettingField,
          Value.entry? fields' field.name = Value.entry? fields field.name) →
        (find host files' place' environment' vars').1 =
          (find host files place environment vars).1) := by
  refine ⟨fun fault hfault => ?_, fun hheld => ?_⟩
  · rw [h.find_fst, hfault]
  · have hfind := h.find_fst
    rw [Variables.findSome?_fault?_eq_none_iff.mpr hheld] at hfind
    dsimp only at hfind
    refine ⟨hfind ▸ settled_ofValues host _ fields, ?_⟩
    intro files' place' environment' vars' assignments' fields' h' hheld' hvars hfields
    have hfind' := h'.find_fst
    rw [Variables.findSome?_fault?_eq_none_iff.mpr hheld'] at hfind'
    dsimp only at hfind'
    have hchosen : chosenValue (vars'.setAll assignments') fields' =
        chosenValue (vars.setAll assignments) fields :=
      funext fun field => chosenValue_congr (hvars field) (hfields field)
    rw [hfind, hfind', hchosen]

/-! ### Two pairs of files -/

/-- A file with the given text, all of it ASCII. -/
def fileOf (text : String) : Content :=
  .bytes (text.toList.map fun c => UInt8.ofNat c.toNat)

/-- The assignments and the settings of `dev`, in files next to each other. -/
def deskOf (assignments settings : String) : Files :=
  ⟨[([⟨".env.dev", rfl⟩], .file (fileOf assignments)),
    ([⟨"desk.yml", rfl⟩], .file (fileOf settings))]⟩

/-- Where the files of `deskOf` are. -/
def deskPlace : SettingsPlace := ⟨.ofString "/desk.yml", .ofString "/"⟩

theorem sources_deskOf {assignments settings : String} {vars : Variables}
    (sections : List (Value × Value)) {fields : List (Value × Value)}
    (hassignments : (deskOf assignments settings).read Host.atRoot.current
      (deskPlace.assignments "dev") = .ok (fileOf assignments))
    (hsettings : (deskOf assignments settings).read Host.atRoot.current deskPlace.file =
      .ok (fileOf settings))
    (hdecoded : Text.utf8 (assignments.toList.map fun c => UInt8.ofNat c.toNat) =
      .ok assignments.toList)
    (hparsed : Host.atRoot.libraries.valueOf
      (settings.toList.map fun c => UInt8.ofNat c.toNat) = .ok (.map sections))
    (hfields : EntriesOf (Value.entry? sections "dev") fields) :
    Sources (deskOf assignments settings) .atRoot deskPlace "dev" vars
      (Host.atRoot.libraries.assigned vars (Text.unifyBreaks assignments.toList)) fields :=
  ⟨by decide, .text ⟨_, hassignments, hdecoded⟩, sections,
    .document hsettings hparsed (.mapping sections), hfields⟩

/-- The depth comes from an assignment that refers to a variable, the folder of the user from a
variable that is set to nothing, the root from the section, and the pattern is the standard. -/
theorem find_of_sources_deskOf :
    let files := deskOf "CUTSCENE_MAX_RULE_DEPTH=$\x7bDEPTH\x7d\nCUTSCENE_USER_DIR\n"
      "dev:\n  max_rule_depth: 9\n  project_root: /p\n  definition_glob: null\nprd: 1\n"
    let vars := [("DEPTH", "7"), ("CUTSCENE_USER_DIR", "")]
    let assignments := [("CUTSCENE_MAX_RULE_DEPTH", "7")]
    let fields := [(.text "max_rule_depth", .int 9), (.text "project_root", .text "/p"),
      (.text "definition_glob", .null)]
    Sources files .atRoot deskPlace "dev" vars assignments fields ∧
      (∀ assignment ∈ assignments, Variables.Holdable assignment) ∧
      Host.atRoot.libraries.Documented ∧
      Settled .atRoot (Variables.setAll vars assignments) fields
        (find .atRoot files deskPlace "dev" vars).1 := by
  intro files vars assignments fields
  have hassignments : Host.atRoot.libraries.assigned vars (Text.unifyBreaks
      "CUTSCENE_MAX_RULE_DEPTH=$\x7bDEPTH\x7d\nCUTSCENE_USER_DIR\n".toList) = assignments := by
    decide +kernel
  have hsources : Sources files .atRoot deskPlace "dev" vars assignments fields := by
    rw [← hassignments]
    exact sources_deskOf [(.text "dev", .map fields), (.text "prd", .int 1)]
      (by decide +kernel) (by decide +kernel) (by decide +kernel) (by decide +kernel)
      (.mapping fields)
  have hheld : ∀ assignment ∈ assignments, Variables.Holdable assignment :=
    Variables.findSome?_fault?_eq_none_iff.mp (by decide +kernel)
  exact ⟨hsources, hheld, Libraries.documented_standard _,
    ((find_of_sources hsources).2 hheld).1⟩

/-- A value with a null character in it, which no environment can hold, keeps the standards from
being found. -/
theorem not_settled_find_deskOf :
    let files := deskOf "NOTE=\x00\n" "dev:\n"
    let assignments := [("NOTE", "\x00")]
    Sources files .atRoot deskPlace "dev" [] assignments [] ∧
      ¬ Settled .atRoot (Variables.setAll [] assignments) []
        (find .atRoot files deskPlace "dev" []).1 := by
  intro files assignments
  have hassignments : Host.atRoot.libraries.assigned []
      (Text.unifyBreaks "NOTE=\x00\n".toList) = assignments := by
    decide +kernel
  have hsources : Sources files .atRoot deskPlace "dev" [] assignments [] := by
    rw [← hassignments]
    exact sources_deskOf [(.text "dev", .null)] (by decide +kernel) (by decide +kernel)
      (by decide +kernel) (by decide +kernel) (.void rfl)
  have hfault : assignments.findSome? Variables.fault? = some .nullCharacter := by decide +kernel
  refine ⟨hsources, fun hsettled => ?_⟩
  have hunchosen (field : SettingField) (v : Value) :
      ¬ Chosen (Variables.setAll [] assignments) [] field v := by
    rw [← chosenValue_eq_some_iff]
    cases field <;> nofun
  obtain ⟨settings, hok, -⟩ := hsettled.of_fits fun field v hv => absurd hv (hunchosen field v)
  rw [hsources.find_fst, hfault] at hok
  cases hok

end Settings

end CutsceneCatalog
