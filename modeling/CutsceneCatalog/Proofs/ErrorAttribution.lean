import CutsceneCatalog.Definition
import CutsceneCatalog.Proofs.FolderLoading
import CutsceneCatalog.Proofs.RuleReading

/-!
# Which file an error is about

An error of an import names the file that was to be imported, at the absolute location that its path
stands for, and its wording ends with that name (`ImportError.Names`).  It makes no difference where
in the file something is wrong, or whether the file could be read at all.  An error about a
registered opcode names the file whose definition has that opcode, by the path that led to it.

`Registry.errors_name_their_files` says both.  The first part goes down the stages of an import,
each of which hands the file on to its errors, and down the levels of nested rules, by induction on
the element (`Rule.of_ofElement_eq_error`).  The second part rests on the first, because an import
itself never finds an opcode registered (`Importer.cause_ne_duplicateOpcode`).
-/

namespace CutsceneCatalog

/-! ## Texts of locations -/

theorem Part.text_ne_empty (part : Part) : part.text ≠ "" := by
  intro hempty
  have hproper := part.proper
  simp [isPart, hempty] at hproper

namespace Location

theorem join_ne_nil {separator : Char} {piece : List Char} {more : List (List Char)}
    (h : piece ≠ []) : Text.join separator (piece :: more) ≠ [] := by
  cases more with
  | nil => exact h
  | cons next others => simp [Text.join, h]

theorem text_ne_empty (l : Location) : l.text ≠ "" := by
  obtain ⟨anchor, parts⟩ := l
  intro h
  unfold text at h
  split at h
  · exact absurd h (by decide)
  · next hpoint =>
    obtain ⟨hanchor, hparts⟩ := String.append_eq_empty_iff.mp h
    cases anchor with
    | root | doubleRoot => simp [Anchor.text] at hanchor
    | relative =>
      cases parts with
      | nil => exact hpoint ⟨rfl, rfl⟩
      | cons part more =>
        have hpart : part.text.toList ≠ [] := by
          intro hempty
          exact part.text_ne_empty (String.toList_eq_nil_iff.mp hempty)
        exact join_ne_nil hpart (String.ofList_eq_empty_iff.mp hparts)

end Location

/-! ## Errors of imports -/

/-- The wording that names a file at the end of an error. -/
def fileSuffix (file : String) : String := " (in instruction definition file '" ++ file ++ "')"

/-- An error keeps the name of a file, and its wording ends with it. -/
structure ImportError.Names (error : ImportError) (file : String) : Prop where
  file_eq : error.file = some file
  message_eq : error.message = error.cause.message ++ fileSuffix file

theorem append_fileSuffix (message file : String) :
    message ++ " (in instruction definition file '" ++ file ++ "')" =
      message ++ fileSuffix file := by
  unfold fileSuffix
  simp only [String.append_assoc]

theorem ImportError.names_of_file_eq {error : ImportError} {l : Location}
    (h : error.file = some l.text) : error.Names l.text := by
  obtain ⟨cause, file⟩ := error
  obtain rfl : file = some l.text := h
  refine ⟨rfl, ?_⟩
  unfold message
  dsimp only
  rw [if_neg l.text_ne_empty]
  exact append_fileSuffix _ _

/-! ### Errors of documents -/

/-- However deep in an element a rule is refused, the error is about the file that the reading of
the outermost element was given. -/
theorem Rule.of_ofElement_eq_error {maxDepth depth : Int} {file : Option String} {e : Element}
    {error : ImportError} (h : ofElement maxDepth file depth e = .error error) :
    ∃ fault, error = ⟨.rule fault, file⟩ := by
  induction e using Element.induct generalizing depth with
  | step e ih =>
    rcases RuleChild.name_cases e.name with ⟨kind, hkind⟩ | hfield | ⟨hrule, hfield⟩
    · by_cases hdepth : depth ≤ maxDepth
      · rw [ofElement_of_rule hkind hdepth, map_eq_error_iff] at h
        by_cases hpre : kind = .preInstruction
        · rw [hpre, ofKind_preInstruction] at h
          cases h
        · -- The kinds with nested rules hand the file on to each child.
          rw [ofKind_of_ne hpre, map_eq_error_iff] at h
          obtain ⟨child, hchild, herror⟩ := exists_child_of_ofChildren_eq_error h
          exact ih child hchild herror
      · rw [ofElement_of_tooDeep hkind (Int.not_le.mp hdepth)] at h
        exact ⟨_, (Except.error.inj h).symm⟩
    · rw [ofElement_of_field hfield] at h
      cases h
    · rw [ofElement_of_unknown hrule hfield] at h
      exact ⟨_, (Except.error.inj h).symm⟩

namespace Definition

variable {around : Surroundings} {file : Option String} {definition : Definition} {e root : Element}
  {error : ImportError}

/-- A child of the root is refused for its own name or for a rule in it. -/
theorem of_extend_eq_error (h : extend around file definition e = .error error) :
    error = ⟨.elementNotAllowed e.name, file⟩ ∨ ∃ fault, error = ⟨.rule fault, file⟩ := by
  unfold extend at h
  cases hentry : Entry.ofTag? e.name with
  | none =>
    rw [hentry] at h
    exact .inl (Except.error.inj h).symm
  | some entry =>
    rw [hentry] at h
    cases entry with
    | rule kind =>
      dsimp only at h
      rw [bind_eq_error_iff] at h
      rcases h with hrule | ⟨rule, -, hnext⟩
      · exact .inr (Rule.of_ofElement_eq_error hrule)
      · cases rule <;> cases hnext
    | _ => cases h

/-- A document is refused with an error about its file, and not because an opcode is registered. -/
theorem of_read_eq_error (h : read around file root = .error error) :
    error.file = file ∧ ∀ opcode, error.cause ≠ .duplicateOpcode opcode := by
  obtain ⟨e, -, sofar, hstep⟩ := exists_of_foldlM_eq_error h
  rcases of_extend_eq_error hstep with rfl | ⟨fault, rfl⟩
  · exact ⟨rfl, nofun⟩
  · exact ⟨rfl, nofun⟩

end Definition

/-- Whatever is malformed in a document is an error about the file that it is from. -/
theorem Element.of_parse_eq_refused {codecs : Markup.Codecs} {file : Option String}
    {source : Markup.Source} {error : ImportError}
    (h : Element.parse codecs file source = .error (.refused error)) :
    error = ⟨.document .malformed, file⟩ := by
  unfold parse at h
  split at h
  · cases h
  · obtain ⟨⟩ := h
    rfl
  · cases h

namespace Importer

variable {importer : Importer} {location : Location} {path : String} {error : ImportError}

/-- Whatever keeps a document from being read is an error about its file. -/
theorem of_document_eq_refused (h : importer.document location = .error (.refused error)) :
    ∃ fault, error = ⟨.document fault, some location.text⟩ := by
  unfold document at h
  split at h
  · obtain ⟨⟩ := h
    exact ⟨_, rfl⟩
  · obtain ⟨⟩ := h
    exact ⟨_, rfl⟩
  · exact ⟨_, Element.of_parse_eq_refused h⟩

/-- Whatever keeps a definition from being read is an error about its file, and is not that an
opcode is registered. -/
theorem of_definition_eq_refused (h : importer.definition location = .error (.refused error)) :
    error.file = some location.text ∧ ∀ opcode, error.cause ≠ .duplicateOpcode opcode := by
  unfold definition at h
  rw [bind_eq_error_iff] at h
  rcases h with hdocument | ⟨root, -, hread⟩
  · obtain ⟨fault, rfl⟩ := of_document_eq_refused hdocument
    refine ⟨rfl, ?_⟩
    intro opcode hcause
    cases hcause
  · dsimp only at hread
    split at hread
    · cases hread
    · next other hother =>
      obtain ⟨⟩ := hread
      exact Definition.of_read_eq_error hother

theorem cause_ne_duplicateOpcode (h : (importer.load path).1 = .error (.refused error))
    (opcode : String) : error.cause ≠ .duplicateOpcode opcode :=
  (of_definition_eq_refused h).2 opcode

theorem names_of_load_eq_refused (h : (importer.load path).1 = .error (.refused error)) :
    error.Names (importer.settings.locate importer.host path).text :=
  ImportError.names_of_file_eq (of_definition_eq_refused h).1

/-- The last record of an import that was refused is that of its error. -/
theorem getLast?_load_of_refused (h : (importer.load path).1 = .error (.refused error)) :
    (importer.load path).2.getLast? = some (.failed error) := by
  have hrecords : (importer.load path).2 =
      .importing (importer.settings.locate importer.host path).text ::
        recordsOfEnd (importer.settings.locate importer.host path) (importer.load path).1 := rfl
  rw [hrecords, h]
  rfl

end Importer

/-! ## Errors about opcodes -/

namespace Registry

variable {importer : Importer} {registry : Registry} {error : ImportError} {opcode : String}

theorem loadFile_fst (registry : Registry) (importer : Importer) (path : String) :
    (registry.loadFile importer path).1 =
      match (importer.load path).1 with
      | .error failure => .error failure
      | .ok definition =>
          if registry.contains definition.opcode then
            .error (.refused ⟨.duplicateOpcode definition.opcode, some path⟩)
          else .ok (definition, registry.putAll [definition]) := by
  unfold loadFile Call.answer
  rw [Call.on_loadFile]
  cases (importer.load path).1 with
  | error failure => rfl
  | ok definition =>
    dsimp only
    cases registry.contains definition.opcode <;> rfl

/-- A clash that the check of a folder reports is that of a file whose opcode is taken when its turn
comes. -/
theorem exists_of_firstClash_eq_some {seen : List String} {files : List Location}
    {imported : List (String × Definition)} (h : List.Forall₂ importer.EntryOf files imported)
    (hclash : firstClash seen imported = some error) :
    ∃ before file after definition, files = before ++ file :: after ∧
      importer.Yields file definition ∧ importer.Taken seen before definition.opcode ∧
      error = ⟨.duplicateOpcode definition.opcode, some file.text⟩ := by
  induction h generalizing seen with
  | nil => cases hclash
  | @cons first entry files imported hentry _ ih =>
    obtain ⟨path, definition⟩ := entry
    obtain ⟨hyields, rfl⟩ : importer.Yields first definition ∧ path = first.text := hentry
    by_cases hseen : definition.opcode ∈ seen
    · simp only [firstClash, List.contains_eq_mem, hseen, decide_true, if_true,
        Option.some.injEq] at hclash
      exact ⟨[], first, files, definition, rfl, hyields, Or.inl hseen, hclash.symm⟩
    · simp only [firstClash, List.contains_eq_mem, hseen, decide_false, Bool.false_eq_true,
        if_false] at hclash
      obtain ⟨before, file, after, other, rfl, hother, htaken, rfl⟩ := ih hclash
      exact ⟨first :: before, file, after, other, rfl, hother,
        (Importer.taken_cons_iff hyields _).mpr htaken, rfl⟩

/-- A registered opcode found while a file is loaded is that of the file's definition. -/
theorem of_loadFile_eq_duplicateOpcode {path : String}
    (h : (registry.loadFile importer path).1 = .error (.refused error))
    (hcause : error.cause = .duplicateOpcode opcode) :
    error.file = some path ∧ opcode ∈ registry.opcodes ∧
      ∃ definition, (importer.load path).1 = .ok definition ∧ definition.opcode = opcode := by
  rw [loadFile_fst] at h
  cases hload : (importer.load path).1 with
  | error failure =>
    simp only [hload] at h
    obtain rfl : failure = .refused error := Except.error.inj h
    exact absurd hcause (Importer.cause_ne_duplicateOpcode hload opcode)
  | ok definition =>
    simp only [hload] at h
    split at h
    · next hcontains =>
      obtain rfl := ImportFailure.refused.inj (Except.error.inj h)
      obtain rfl := ImportCause.duplicateOpcode.inj hcause
      exact ⟨rfl, (contains_eq_true_iff registry _).mp hcontains, definition, rfl, rfl⟩
    · cases h

/-- A registered opcode found while a folder is loaded is that of the definition in one of its
files, and was registered or that of an earlier file. -/
theorem of_loadFolder_eq_duplicateOpcode {folder : String} {pattern : Option String}
    (h : (registry.loadFolder importer folder pattern).1 = .error (.failed (.refused error)))
    (hcause : error.cause = .duplicateOpcode opcode) :
    ∃ before file after definition,
      importer.files.find importer.host.current (.ofString folder)
        (patternOr importer pattern) = .ok (before ++ file :: after) ∧
      importer.Yields file definition ∧ definition.opcode = opcode ∧
      importer.Taken registry.opcodes before opcode ∧ error.Names file.text := by
  cases hfound : importer.files.find importer.host.current (.ofString folder)
      (patternOr importer pattern) with
  | error fault =>
    unfold loadFolder Call.answer Call.loadFolder at h
    simp only [hfound] at h
    cases h
  | ok found =>
    rw [loadFolder_fst hfound] at h
    cases himport : (found.map Location.text).mapM (Call.entryAt importer) with
    | error failure =>
      simp only [himport, Except.error.injEq, LoadFailure.failed.injEq] at h
      obtain ⟨path, -, hpath⟩ := exists_of_mapM_eq_error himport
      have hload : (importer.load path).1 = .error (.refused error) := by
        unfold Call.entryAt at hpath
        cases hload : (importer.load path).1 with
        | ok definition =>
          rw [hload] at hpath
          cases hpath
        | error other =>
          rw [hload] at hpath
          exact congrArg Except.error ((Except.error.inj hpath).trans h)
      exact absurd hcause (Importer.cause_ne_duplicateOpcode hload opcode)
    | ok imported =>
      simp only [himport] at h
      cases hclash : firstClash registry.opcodes imported with
      | none =>
        rw [hclash] at h
        cases h
      | some clash =>
        simp only [hclash, Except.error.injEq, LoadFailure.failed.injEq,
          ImportFailure.refused.injEq] at h
        subst h
        obtain ⟨before, file, after, definition, rfl, hyields, htaken, rfl⟩ :=
          exists_of_firstClash_eq_some (mapM_entryAt_eq_ok_iff.mp himport) hclash
        obtain rfl := ImportCause.duplicateOpcode.inj hcause
        exact ⟨before, file, after, definition, rfl, hyields, rfl, htaken,
          ImportError.names_of_file_eq rfl⟩

/-- An import that is refused names the file at its path, and the last record is of that error, in
the same words.  When a file or a folder cannot be loaded because of an opcode, the error names the
file whose definition has that opcode: the one at the path given, or one of the files of the
folder. -/
theorem errors_name_their_files (importer : Importer) (registry : Registry) :
    (∀ path error, (importer.load path).1 = .error (.refused error) →
      error.Names (importer.settings.locate importer.host path).text ∧
        ∃ record, (importer.load path).2.getLast? = some record ∧ record.level = .error ∧
          record.message = "Failed to import instruction definition: " ++ error.message) ∧
    (∀ path error opcode, (registry.loadFile importer path).1 = .error (.refused error) →
      error.cause = .duplicateOpcode opcode →
        error.file = some path ∧ opcode ∈ registry.opcodes ∧
          ∃ definition, (importer.load path).1 = .ok definition ∧ definition.opcode = opcode) ∧
    ∀ folder pattern error opcode,
      (registry.loadFolder importer folder pattern).1 = .error (.failed (.refused error)) →
      error.cause = .duplicateOpcode opcode →
        ∃ before file after definition,
          importer.files.find importer.host.current (.ofString folder)
            (patternOr importer pattern) = .ok (before ++ file :: after) ∧
          importer.Yields file definition ∧ definition.opcode = opcode ∧
          importer.Taken registry.opcodes before opcode ∧ error.Names file.text := by
  refine ⟨?_, ?_, ?_⟩
  · intro path error h
    exact ⟨Importer.names_of_load_eq_refused h, .failed error, Importer.getLast?_load_of_refused h,
      rfl, rfl⟩
  · intro path error opcode h hcause
    exact of_loadFile_eq_duplicateOpcode h hcause
  · intro folder pattern error opcode h hcause
    exact of_loadFolder_eq_duplicateOpcode h hcause

end Registry

end CutsceneCatalog
