import CutsceneCatalog.Libraries.Standard
import CutsceneCatalog.Proofs.FileOrder
import CutsceneCatalog.Proofs.RegistryCalls

/-!
# Loading a folder, and loading its files one by one

A folder is loaded in three passes over its files: all are imported, all opcodes are checked, all
definitions are stored.  Loading the files one by one (`Call.loadEach`) does all three for each file
before it turns to the next.  The two differ in the error that wins when several things are wrong,
and in what is left behind then; `Registry.loadFolder_inOrder` says in what they agree.

Both are compared with what the files are imported with (`Importer.Yields`) and with which opcodes
are taken when a file's turn comes (`Importer.Taken`): those that were seen before and those of
earlier files.  One by one, the opcodes seen are those of the registry as it grows; in the check of
a folder they are a list of their own.  A file that goes through adds its opcode to both, which is
`Importer.taken_cons_iff`, and neither walk needs more than that.
-/

namespace CutsceneCatalog

/-! ## Files and their opcodes -/

namespace Importer

variable {importer : Importer} {seen : List String} {files before : List Location}
  {file first : Location} {definition : Definition}

/-- A file is imported with a definition. -/
def Yields (importer : Importer) (file : Location) (definition : Definition) : Prop :=
  (importer.load file.text).1 = .ok definition

/-- An opcode has been seen, or an earlier file has it. -/
def Taken (importer : Importer) (seen : List String) (before : List Location) (opcode : String) :
    Prop :=
  opcode ∈ seen ∨ ∃ earlier ∈ before, ∃ other, importer.Yields earlier other ∧ other.opcode = opcode

/-- No file has an opcode that is taken when its turn comes. -/
def NoClash (importer : Importer) (seen : List String) (files : List Location) : Prop :=
  ∀ before file after definition, files = before ++ file :: after →
    importer.Yields file definition → ¬importer.Taken seen before definition.opcode

theorem Yields.unique {other : Definition} (h : importer.Yields file definition)
    (h' : importer.Yields file other) : other = definition :=
  Except.ok.inj (h'.symm.trans h)

/-- The opcode of a file that goes first might as well have been seen before. -/
theorem taken_cons_iff (hfirst : importer.Yields first definition) (opcode : String) :
    importer.Taken seen (first :: before) opcode ↔
      importer.Taken (seen ++ [definition.opcode]) before opcode := by
  simp only [Taken, List.mem_append, List.mem_singleton, List.exists_mem_cons_iff]
  constructor
  · rintro (hseen | ⟨other, hother, rfl⟩ | hearlier)
    · exact Or.inl (Or.inl hseen)
    · rw [hfirst.unique hother]
      exact Or.inl (Or.inr rfl)
    · exact Or.inr hearlier
  · rintro ((hseen | rfl) | hearlier)
    · exact Or.inl hseen
    · exact Or.inr (Or.inl ⟨definition, hfirst, rfl⟩)
    · exact Or.inr (Or.inr hearlier)

theorem noClash_nil : importer.NoClash seen [] := by
  intro before file after definition hsplit
  cases before <;> cases hsplit

theorem noClash_cons_iff (hfirst : importer.Yields first definition) :
    importer.NoClash seen (first :: files) ↔
      definition.opcode ∉ seen ∧ importer.NoClash (seen ++ [definition.opcode]) files := by
  constructor
  · intro h
    refine ⟨?_, ?_⟩
    · intro hseen
      exact h [] first files definition rfl hfirst (Or.inl hseen)
    · rintro before file after other rfl hfile htaken
      exact h (first :: before) file after other rfl hfile ((taken_cons_iff hfirst _).mpr htaken)
  · rintro ⟨hnew, hrest⟩ before file after other hsplit hfile htaken
    cases before with
    | nil =>
      -- The first file itself: nothing is before it.
      obtain ⟨rfl, rfl⟩ := List.cons.inj hsplit
      obtain rfl := hfirst.unique hfile
      rcases htaken with hseen | ⟨earlier, hearlier, -⟩
      · exact hnew hseen
      · cases hearlier
    | cons head before =>
      obtain ⟨rfl, rfl⟩ := List.cons.inj hsplit
      exact hrest before file after other rfl hfile ((taken_cons_iff hfirst _).mp htaken)

/-- A file's entry among those imported: its path and its definition. -/
def EntryOf (importer : Importer) (file : Location) (entry : String × Definition) : Prop :=
  importer.Yields file entry.2 ∧ entry.1 = file.text

end Importer

/-! ## The check of a folder -/

namespace Registry

variable {importer : Importer} {seen : List String} {files : List Location}
  {imported : List (String × Definition)}

theorem firstClash_eq_none_iff_noClash (h : List.Forall₂ importer.EntryOf files imported) :
    firstClash seen imported = none ↔ importer.NoClash seen files := by
  induction h generalizing seen with
  | nil => exact iff_of_true rfl Importer.noClash_nil
  | @cons file entry files imported hentry _ ih =>
    rw [Importer.noClash_cons_iff hentry.1, ← ih]
    by_cases hseen : entry.2.opcode ∈ seen <;> simp [firstClash, hseen]

/-- The check finds the first file whose opcode is taken. -/
theorem firstClash_eq_some {before after : List Location} {file : Location}
    {definition : Definition}
    (h : List.Forall₂ importer.EntryOf (before ++ file :: after) imported)
    (hbefore : importer.NoClash seen before) (hfile : importer.Yields file definition)
    (htaken : importer.Taken seen before definition.opcode) :
    firstClash seen imported = some ⟨.duplicateOpcode definition.opcode, some file.text⟩ := by
  induction before generalizing seen imported with
  | nil =>
    obtain ⟨entry, rest, hentry, -, rfl⟩ := List.forall₂_cons_left_iff.mp h
    obtain ⟨path, other⟩ := entry
    obtain rfl : other = definition := hfile.unique hentry.1
    obtain rfl : path = file.text := hentry.2
    rcases htaken with hseen | ⟨earlier, hearlier, -⟩
    · simp [firstClash, hseen]
    · cases hearlier
  | cons first before ih =>
    obtain ⟨entry, rest, hentry, hrest, rfl⟩ := List.forall₂_cons_left_iff.mp h
    obtain ⟨hnew, hbefore⟩ := (Importer.noClash_cons_iff hentry.1).mp hbefore
    have hgo : firstClash seen (entry :: rest) = firstClash (seen ++ [entry.2.opcode]) rest := by
      simp [firstClash, hnew]
    rw [hgo]
    exact ih hrest hbefore ((Importer.taken_cons_iff hentry.1 _).mp htaken)

end Registry

/-! ## The two ways of loading -/

namespace Call

variable {importer : Importer}

/-- Loads files one by one, up to the first that fails. -/
def loadEach (importer : Importer) (files : List Location) : Call ImportFailure (List Definition) :=
  files.mapM fun file => loadFile importer file.text

/-- What a path gives for the list of what was imported. -/
def entryAt (importer : Importer) (path : String) : Except ImportFailure (String × Definition) :=
  (importer.load path).1.map fun definition => (path, definition)

theorem entryAt_eq_ok_iff (file : Location) (entry : String × Definition) :
    entryAt importer file.text = .ok entry ↔ importer.EntryOf file entry := by
  obtain ⟨path, definition⟩ := entry
  unfold entryAt Importer.EntryOf Importer.Yields
  cases (importer.load file.text).1 with
  | error failure => simp [Except.map]
  | ok other => simp [Except.map, and_comm, eq_comm]

/-- Importing files reads them in order, and leaves nothing but records. -/
theorem on_importAll (importer : Importer) (paths : List String) (ledger : Ledger) :
    ∃ records, (importAll importer paths).on ledger =
      (paths.mapM (entryAt importer), ⟨ledger.registry, records⟩) := by
  unfold importAll
  induction paths generalizing ledger with
  | nil => exact ⟨ledger.records, rfl⟩
  | cons path rest ih =>
    rw [List.mapM_cons, List.mapM_cons, on_bind, on_bind, on_importing, entryAt]
    cases (importer.load path).1 with
    | error failure => exact ⟨_, rfl⟩
    | ok definition =>
      obtain ⟨records, hrest⟩ :=
        ih { ledger with records := ledger.records ++ (importer.load path).2 }
      refine ⟨records, ?_⟩
      simp only [on_pure, on_bind, hrest]
      cases rest.mapM (entryAt importer) <;> rfl

theorem on_loadFile (path : String) (ledger : Ledger) :
    (loadFile importer path).on ledger =
      match (importer.load path).1 with
      | .error failure =>
          (.error failure, ⟨ledger.registry, ledger.records ++ (importer.load path).2⟩)
      | .ok definition =>
          if ledger.registry.contains definition.opcode then
            (.error (.refused ⟨.duplicateOpcode definition.opcode, some path⟩),
              ⟨ledger.registry, ledger.records ++ (importer.load path).2⟩)
          else
            (.ok definition, ⟨ledger.registry.putAll [definition],
              ledger.records ++ (importer.load path).2⟩) := by
  unfold loadFile
  rw [on_bind, on_importing]
  cases (importer.load path).1 with
  | error failure => rfl
  | ok definition =>
    dsimp only
    rw [on_bind, on_adapt, on_register]
    cases ledger.registry.contains definition.opcode <;> rfl

section

variable {file : Location} {ledger next : Ledger} {definition : Definition}

theorem on_loadFile_of_new (hfile : importer.Yields file definition)
    (hnew : definition.opcode ∉ ledger.registry.opcodes) :
    (loadFile importer file.text).on ledger = (.ok definition,
      ⟨ledger.registry.putAll [definition],
        ledger.records ++ (importer.load file.text).2⟩) := by
  rw [Importer.Yields] at hfile
  rw [← Registry.contains_eq_true_iff] at hnew
  rw [on_loadFile, hfile]
  exact if_neg hnew

/-- A file is loaded only if it is imported and its opcode is new. -/
theorem of_on_loadFile_eq_ok
    (h : (loadFile importer file.text).on ledger = (.ok definition, next)) :
    importer.Yields file definition ∧ definition.opcode ∉ ledger.registry.opcodes := by
  rw [on_loadFile] at h
  rw [Importer.Yields, ← Registry.contains_eq_true_iff]
  cases hload : (importer.load file.text).1 with
  | error failure =>
    rw [hload] at h
    cases h
  | ok other =>
    simp only [hload] at h
    split at h
    · cases h
    · next hnew =>
      obtain rfl : other = definition := Except.ok.inj (Prod.mk.inj h).1
      exact ⟨rfl, hnew⟩

end

theorem opcodes_putAll_singleton {registry : Registry} {definition : Definition}
    (h : definition.opcode ∉ registry.opcodes) :
    (registry.putAll [definition]).opcodes = registry.opcodes ++ [definition.opcode] :=
  (Registry.extendedBy_put h).opcodes

theorem loadEach_cons (file : Location) (files : List Location) :
    loadEach importer (file :: files) = (do
      let definition ← loadFile importer file.text
      let others ← loadEach importer files
      return definition :: others) :=
  List.mapM_cons

/-- The first file is loaded, and the others after it. -/
theorem on_loadEach_cons_eq_ok_iff {file : Location} {files : List Location} {ledger last : Ledger}
    {definitions : List Definition} :
    (loadEach importer (file :: files)).on ledger = (.ok definitions, last) ↔
      ∃ definition others next, (loadFile importer file.text).on ledger = (.ok definition, next) ∧
        (loadEach importer files).on next = (.ok others, last) ∧
        definitions = definition :: others := by
  rw [loadEach_cons, on_bind]
  generalize (loadFile importer file.text).on ledger = first
  obtain ⟨failure | definition, next⟩ := first
  · simp
  · dsimp only
    rw [on_bind]
    generalize hrest : (loadEach importer files).on next = rest
    obtain ⟨failure | others, final⟩ := rest
    · simp [hrest]
    · simp [hrest, on_pure, and_comm, eq_comm]

/-- Loading files one by one succeeds exactly if all are imported and no opcode is taken when its
turn comes, and then it puts their definitions into the registry in order. -/
theorem on_loadEach_eq_ok_iff {files : List Location} {ledger : Ledger}
    {definitions : List Definition} {registry : Registry} :
    (∃ records, (loadEach importer files).on ledger = (.ok definitions, ⟨registry, records⟩)) ↔
      List.Forall₂ importer.Yields files definitions ∧
        importer.NoClash ledger.registry.opcodes files ∧
        registry = ledger.registry.putAll definitions := by
  induction files generalizing ledger definitions with
  | nil =>
    have hnone : (loadEach importer []).on ledger = (.ok [], ledger) := rfl
    rw [hnone, List.forall₂_nil_left_iff]
    constructor
    · rintro ⟨records, h⟩
      obtain ⟨hdefinitions, rfl⟩ := Prod.mk.inj h
      obtain rfl := Except.ok.inj hdefinitions
      exact ⟨rfl, Importer.noClash_nil, rfl⟩
    · rintro ⟨rfl, -, rfl⟩
      exact ⟨ledger.records, rfl⟩
  | cons file files ih =>
    simp only [on_loadEach_cons_eq_ok_iff, List.forall₂_cons_left_iff]
    constructor
    · rintro ⟨records, definition, others, next, hfirst, hrest, rfl⟩
      obtain ⟨hyields, hnew⟩ := of_on_loadFile_eq_ok hfirst
      have hnext : next = ⟨ledger.registry.putAll [definition],
          ledger.records ++ (importer.load file.text).2⟩ :=
        (Prod.mk.inj (hfirst.symm.trans (on_loadFile_of_new hyields hnew))).2
      obtain ⟨hothers, hclash, rfl⟩ := ih.mp ⟨records, hrest⟩
      rw [hnext, opcodes_putAll_singleton hnew] at hclash
      rw [hnext]
      exact ⟨⟨definition, others, hyields, hothers, rfl⟩,
        (Importer.noClash_cons_iff hyields).mpr ⟨hnew, hclash⟩, rfl⟩
    · rintro ⟨⟨definition, others, hyields, hothers, rfl⟩, hclash, rfl⟩
      obtain ⟨hnew, hclash⟩ := (Importer.noClash_cons_iff hyields).mp hclash
      rw [← opcodes_putAll_singleton hnew] at hclash
      let next : Ledger := ⟨ledger.registry.putAll [definition],
        ledger.records ++ (importer.load file.text).2⟩
      have hfirst : (loadFile importer file.text).on ledger = (.ok definition, next) :=
        on_loadFile_of_new hyields hnew
      have hrest : ∃ records, (loadEach importer files).on next =
          (.ok others, ⟨next.registry.putAll others, records⟩) := ih.mpr ⟨hothers, hclash, rfl⟩
      obtain ⟨records, hrest⟩ := hrest
      exact ⟨records, definition, others, next, hfirst, hrest, rfl⟩

end Call

namespace Registry

variable {importer : Importer} {folder : String} {pattern : Option String}
  {registry : Registry} {found : List Location}

theorem loadEach_eq_ok_iff {definitions : List Definition} {final : Registry} :
    ((Call.loadEach importer found).answer registry).1 = .ok (definitions, final) ↔
      List.Forall₂ importer.Yields found definitions ∧ importer.NoClash registry.opcodes found ∧
        final = registry.putAll definitions := by
  refine Iff.trans ?_ (@Call.on_loadEach_eq_ok_iff importer found ⟨registry, []⟩ definitions final)
  rw [Call.answer]
  generalize (Call.loadEach importer found).on ⟨registry, []⟩ = run
  obtain ⟨failure | answered, after, records⟩ := run <;> simp [Except.map]

/-- The entries that files are imported with, in order. -/
theorem mapM_entryAt_eq_ok_iff {imported : List (String × Definition)} :
    (found.map Location.text).mapM (Call.entryAt importer) = .ok imported ↔
      List.Forall₂ importer.EntryOf found imported := by
  rw [mapM_eq_ok_iff, List.forall₂_map_left_iff]
  simp only [Call.entryAt_eq_ok_iff]

theorem exists_entries {definitions : List Definition}
    (h : List.Forall₂ importer.Yields found definitions) :
    ∃ imported, List.Forall₂ importer.EntryOf found imported ∧
      imported.map Prod.snd = definitions := by
  induction h with
  | nil => exact ⟨[], .nil, rfl⟩
  | @cons file definition _ _ hfile _ ih =>
    obtain ⟨imported, himported, rfl⟩ := ih
    exact ⟨(file.text, definition) :: imported, .cons ⟨hfile, rfl⟩ himported, rfl⟩

section

variable (hfound : importer.files.find importer.host.current (.ofString folder)
  (patternOr importer pattern) = .ok found)
include hfound

theorem loadFolder_fst :
    (registry.loadFolder importer folder pattern).1 =
      match (found.map Location.text).mapM (Call.entryAt importer) with
      | .error failure => .error (.failed failure)
      | .ok imported =>
          match firstClash registry.opcodes imported with
          | some error => .error (.failed (.refused error))
          | none => .ok (imported.map Prod.snd, registry.putAll (imported.map Prod.snd)) := by
  obtain ⟨records, himport⟩ :=
    Call.on_importAll importer (found.map Location.text) ⟨registry, []⟩
  unfold loadFolder Call.answer Call.loadFolder
  simp only [hfound, Call.on_bind, Call.on_adapt, himport]
  cases (found.map Location.text).mapM (Call.entryAt importer) with
  | error failure => rfl
  | ok imported =>
    simp only [Except.mapError, Call.on_get]
    cases firstClash registry.opcodes imported <;> rfl

/-- Loading a folder succeeds under the same conditions as loading its files one by one, with the
same answer and the same registry. -/
theorem loadFolder_eq_ok_iff {definitions : List Definition} {final : Registry} :
    (registry.loadFolder importer folder pattern).1 = .ok (definitions, final) ↔
      List.Forall₂ importer.Yields found definitions ∧ importer.NoClash registry.opcodes found ∧
        final = registry.putAll definitions := by
  rw [loadFolder_fst hfound]
  constructor
  · intro h
    cases himport : (found.map Location.text).mapM (Call.entryAt importer) with
    | error failure =>
      rw [himport] at h
      cases h
    | ok imported =>
      have hentries := mapM_entryAt_eq_ok_iff.mp himport
      simp only [himport] at h
      cases hclash : firstClash registry.opcodes imported with
      | some error =>
        rw [hclash] at h
        cases h
      | none =>
        rw [hclash] at h
        obtain ⟨rfl, rfl⟩ := Prod.mk.inj (Except.ok.inj h)
        refine ⟨?_, (firstClash_eq_none_iff_noClash hentries).mp hclash, rfl⟩
        exact List.forall₂_map_right_iff.mpr (hentries.imp fun _ _ hentry => hentry.1)
  · rintro ⟨hyields, hclash, rfl⟩
    obtain ⟨imported, hentries, rfl⟩ := exists_entries hyields
    rw [mapM_entryAt_eq_ok_iff.mpr hentries]
    dsimp only
    rw [(firstClash_eq_none_iff_noClash hentries).mpr hclash]

/-- The first file that is not imported decides, whatever opcodes clash before it. -/
theorem loadFolder_of_first_failure {before after : List Location} {file : Location}
    {failure : ImportFailure} (hsplit : found = before ++ file :: after)
    (hbefore : ∀ earlier ∈ before, ∃ definition, importer.Yields earlier definition)
    (hfile : (importer.load file.text).1 = .error failure) :
    (registry.loadFolder importer folder pattern).1 = .error (.failed failure) := by
  have himport : (found.map Location.text).mapM (Call.entryAt importer) = .error failure := by
    rw [hsplit, List.map_append, List.map_cons]
    refine mapM_eq_error_of_first ?_ ?_
    · intro path hpath
      obtain ⟨earlier, hearlier, rfl⟩ := List.mem_map.mp hpath
      obtain ⟨definition, hdefinition⟩ := hbefore earlier hearlier
      exact ⟨_, (Call.entryAt_eq_ok_iff earlier (earlier.text, definition)).mpr ⟨hdefinition, rfl⟩⟩
    · rw [Call.entryAt, hfile]
      rfl
  rw [loadFolder_fst hfound, himport]

/-- If all files are imported, the first whose opcode is taken decides. -/
theorem loadFolder_of_first_clash {before after : List Location} {file : Location}
    {definition : Definition}
    (himported : ∀ file ∈ found, ∃ definition, importer.Yields file definition)
    (hsplit : found = before ++ file :: after) (hbefore : importer.NoClash registry.opcodes before)
    (hfile : importer.Yields file definition)
    (htaken : importer.Taken registry.opcodes before definition.opcode) :
    (registry.loadFolder importer folder pattern).1 =
      .error (.failed (.refused ⟨.duplicateOpcode definition.opcode, some file.text⟩)) := by
  obtain ⟨definitions, hyields⟩ := exists_forall₂_of_forall himported
  obtain ⟨imported, hentries, -⟩ := exists_entries hyields
  rw [loadFolder_fst hfound, mapM_entryAt_eq_ok_iff.mpr hentries]
  rw [hsplit] at hentries
  dsimp only
  rw [firstClash_eq_some hentries hbefore hfile htaken]

end

end Registry

/-! ## Folders in order -/

/-- What loading a folder with the given files comes to: the outcome, compared with what the files
are imported with and with that of loading them one by one into the same registry. -/
structure LoadedInOrder (registry : Registry) (importer : Importer) (files : List Location)
    (outcome : Except LoadFailure (List Definition × Registry)) : Prop where
  /-- A file that is not imported decides, if it is the first such file. -/
  first_failure : ∀ before file after failure, files = before ++ file :: after →
    (∀ earlier ∈ before, ∃ definition, importer.Yields earlier definition) →
    (importer.load file.text).1 = .error failure → outcome = .error (.failed failure)
  /-- Otherwise a file whose opcode is taken decides, if it is the first such file. -/
  first_clash : ∀ before file after definition,
    (∀ file ∈ files, ∃ definition, importer.Yields file definition) →
    files = before ++ file :: after → importer.NoClash registry.opcodes before →
    importer.Yields file definition →
    importer.Taken registry.opcodes before definition.opcode →
    outcome = .error (.failed (.refused ⟨.duplicateOpcode definition.opcode, some file.text⟩))
  /-- Otherwise the answer is the files' definitions in order, and the registry is the same as
  after loading the files one by one. -/
  loaded : (∀ file ∈ files, ∃ definition, importer.Yields file definition) →
    importer.NoClash registry.opcodes files →
    ∃ definitions final, outcome = .ok (definitions, final) ∧
      List.Forall₂ importer.Yields files definitions ∧
      ((Call.loadEach importer files).answer registry).1 = .ok (definitions, final)
  fails_iff : (∃ failure, outcome = .error failure) ↔
    ∃ failure, ((Call.loadEach importer files).answer registry).1 = .error failure

/-- In whatever order the things in a folder are listed, loading the folder treats its files in
their own order, and does so as `LoadedInOrder` says. -/
theorem Registry.loadFolder_inOrder (registry : Registry) (importer : Importer) (folder : String)
    (pattern : Option String) {matched listed files : List Location}
    (hmatched : Pattern.matched importer.files importer.host.current (.ofString folder)
      (patternOr importer pattern) = .ok matched)
    (hlisted : listed.Perm matched)
    (hfiles : Pattern.filesInOrder importer.files importer.host.current listed = .ok files) :
    LoadedInOrder registry importer files (registry.loadFolder importer folder pattern).1 := by
  have hfound : importer.files.find importer.host.current (.ofString folder)
      (patternOr importer pattern) = .ok files := by
    have hanchor : ∀ l ∈ listed, l.anchor = (Location.ofString folder).anchor := fun l hl =>
      Pattern.anchor_of_mem_matched hmatched l (hlisted.mem_iff.mp hl)
    rw [Pattern.find_eq, bind_eq_ok_iff]
    exact ⟨matched, hmatched, Pattern.filesInOrder_of_perm hfiles hlisted hanchor⟩
  constructor
  · intro before file after failure
    exact loadFolder_of_first_failure hfound
  · intro before file after definition
    exact loadFolder_of_first_clash hfound
  · intro himported hclash
    obtain ⟨definitions, hyields⟩ := exists_forall₂_of_forall himported
    exact ⟨definitions, registry.putAll definitions,
      (loadFolder_eq_ok_iff hfound).mpr ⟨hyields, hclash, rfl⟩, hyields,
      loadEach_eq_ok_iff.mpr ⟨hyields, hclash, rfl⟩⟩
  · refine exists_error_iff ?_
    rintro ⟨definitions, final⟩
    rw [loadFolder_eq_ok_iff hfound, loadEach_eq_ok_iff]

namespace Importer

/-- An importer over one folder `d`, in which two files define one opcode and a third is no
document. -/
def ofShelf : Importer :=
  let file (name : Part) (document : String) : List Part × FileEntry :=
    ([⟨"d", rfl⟩, name], .file (.bytes (document.toList.map fun c => UInt8.ofNat c.toNat)))
  ⟨⟨[([⟨"d", rfl⟩], .folder), file ⟨"b.xml", rfl⟩ "<i><opcode>X</opcode></i>",
    file ⟨"c.xml", rfl⟩ "<i>", file ⟨"a.xml", rfl⟩ "<i><opcode>X</opcode></i>"]⟩,
    .atRoot, .standard .atRoot⟩

/-- A file in the folder of `ofShelf`. -/
def onShelf (name : Part) : Location := ⟨.root, [⟨"d", rfl⟩, name]⟩

end Importer

open Importer in
/-- The file that is no document wins over the opcode that two files before it share. -/
theorem Registry.loadFolder_ofShelf :
    let a := onShelf ⟨"a.xml", rfl⟩
    let b := onShelf ⟨"b.xml", rfl⟩
    let c := onShelf ⟨"c.xml", rfl⟩
    Pattern.matched ofShelf.files ofShelf.host.current (.ofString "/d") "*.xml" = .ok [b, c, a] ∧
      [a, b, c].Perm [b, c, a] ∧
      Pattern.filesInOrder ofShelf.files ofShelf.host.current [a, b, c] = .ok [a, b, c] ∧
      (empty.loadFolder ofShelf "/d" none).1 =
        .error (.failed (.refused ⟨.document .malformed, some "/d/c.xml"⟩)) := by
  intro a b c
  have hmatched : Pattern.matched ofShelf.files ofShelf.host.current (.ofString "/d") "*.xml" =
      .ok [b, c, a] := by
    decide +kernel
  have hlisted : [a, b, c].Perm [b, c, a] := by decide +kernel
  have hfiles : Pattern.filesInOrder ofShelf.files ofShelf.host.current [a, b, c] =
      .ok [a, b, c] := by
    rw [Pattern.filesInOrder_eq_ok_iff]
    have hregular : ∀ l ∈ [a, b, c],
        Pattern.regular ofShelf.files ofShelf.host.current l = .ok true := by
      decide +kernel
    refine ⟨fun l hl => ⟨true, hregular l hl⟩, ?_⟩
    rw [List.filter_eq_self.mpr fun l hl => decide_eq_true (hregular l hl)]
    exact (List.mergeSort_of_pairwise (by decide +kernel)).symm
  have hbefore : ∀ earlier ∈ [a, b], ∃ definition, ofShelf.Yields earlier definition := by
    intro earlier hearlier
    have hloads : ∀ l ∈ [a, b], (ofShelf.load l.text).1.toBool = true := by decide +kernel
    have hload := hloads earlier hearlier
    unfold Yields
    cases h : (ofShelf.load earlier.text).1 with
    | error failure =>
      rw [h] at hload
      cases hload
    | ok definition => exact ⟨definition, rfl⟩
  have hfirst : (ofShelf.load c.text).1 =
      .error (.refused ⟨.document .malformed, some "/d/c.xml"⟩) := by
    have hrefused : (ofShelf.load c.text).1.map (fun _ => ()) =
        .error (.refused ⟨.document .malformed, some "/d/c.xml"⟩) := by
      decide +kernel
    cases h : (ofShelf.load c.text).1 with
    | error failure =>
      rw [h] at hrefused
      exact congrArg Except.error (Except.error.inj hrefused)
    | ok definition =>
      rw [h] at hrefused
      cases hrefused
  have hshelf := loadFolder_inOrder empty ofShelf "/d" none hmatched hlisted hfiles
  exact ⟨hmatched, hlisted, hfiles, hshelf.first_failure [a, b] c [] _ rfl hbefore hfirst⟩

end CutsceneCatalog
