import CutsceneCatalog.Registry
import Mathlib.Data.List.Basic
import Mathlib.Data.List.Nodup

/-!
# Calls on a registry

What each call does to the registry it is made on.  `Registry.ExtendedBy` compares a registry with
an earlier one: everything is where it was, and behind it stand definitions under opcodes that were
not there.  `Call.Adds` says that a call does no more than that when it answers, and nothing at all
when it fails; it is proved of the calls one by one, from the steps they are made of.

Loading a folder stores definitions without a further look at the registry.  That this replaces none
is a matter of the check before it: `Registry.firstClash_eq_none_iff` says what it has found out.
-/

namespace CutsceneCatalog

/-! ## Running calls -/

namespace Call

variable {ε ε' α β : Type}

@[simp]
theorem on_pure (a : α) (ledger : Ledger) : (pure a : Call ε α).on ledger = (.ok a, ledger) := rfl

@[simp]
theorem on_throw (e : ε) (ledger : Ledger) :
    (throw e : Call ε α).on ledger = (.error e, ledger) := rfl

@[simp]
theorem on_get (ledger : Ledger) :
    Call.on (get : Call ε Ledger) ledger = (.ok ledger, ledger) := rfl

@[simp]
theorem on_record (entries : List LogRecord) (ledger : Ledger) :
    Call.on (record entries : Call ε Unit) ledger =
      (.ok (), { ledger with records := ledger.records ++ entries }) := rfl

@[simp]
theorem on_store (definitions : List Definition) (ledger : Ledger) :
    Call.on (store definitions : Call ε Unit) ledger =
      (.ok (), { ledger with registry := ledger.registry.putAll definitions }) := rfl

theorem on_bind (call : Call ε α) (next : α → Call ε β) (ledger : Ledger) :
    (call >>= next).on ledger = match call.on ledger with
      | (.ok a, after) => (next a).on after
      | (.error e, after) => (.error e, after) := by
  change ExceptT.bindCont next (call.on ledger).1 (call.on ledger).2 = _
  rcases call.on ledger with ⟨e | a, after⟩ <;> rfl

theorem on_adapt (call : Call ε α) (f : ε → ε') (ledger : Ledger) :
    Call.on (call.adapt f) ledger = ((call.on ledger).1.mapError f, (call.on ledger).2) := rfl

theorem on_importing (importer : Importer) (path : String) (ledger : Ledger) :
    (importing importer path).on ledger = ((importer.load path).1,
      { ledger with records := ledger.records ++ (importer.load path).2 }) := by
  unfold importing
  rcases importer.load path with ⟨outcome, entries⟩
  dsimp only
  rw [on_bind, on_record]
  cases outcome <;> rfl

theorem on_register (definition : Definition) (file : Option String) (ledger : Ledger) :
    (register definition file).on ledger =
      if ledger.registry.contains definition.opcode then
        (.error ⟨.duplicateOpcode definition.opcode, file⟩, ledger)
      else (.ok (), { ledger with registry := ledger.registry.putAll [definition] }) := by
  unfold register
  rw [on_bind, on_get]
  dsimp only
  split <;> rfl

end Call

/-! ## Registries that grow -/

namespace Registry

variable {before middle after : Registry} {added more : List Definition}

/-- A registry holds what an earlier one held, and behind it the added definitions under their own
opcodes, each of which is new. -/
structure ExtendedBy (before : Registry) (added : List Definition) (after : Registry) : Prop where
  entries : after.entries = before.entries ++ added.map fun definition =>
    (definition.opcode, definition)
  fresh : ∀ definition ∈ added, definition.opcode ∉ before.opcodes
  nodup : (added.map Definition.opcode).Nodup

namespace ExtendedBy

theorem refl (registry : Registry) : registry.ExtendedBy [] registry := by
  constructor <;> simp

theorem opcodes (h : before.ExtendedBy added after) :
    after.opcodes = before.opcodes ++ added.map Definition.opcode := by
  simp [Registry.opcodes, h.entries, Function.comp_def]

theorem definitions (h : before.ExtendedBy added after) :
    after.definitions = before.definitions ++ added := by
  simp [Registry.definitions, h.entries, Function.comp_def]

theorem trans (h : before.ExtendedBy added middle) (h' : middle.ExtendedBy more after) :
    before.ExtendedBy (added ++ more) after := by
  have hfresh (definition : Definition) (hmem : definition ∈ more) :
      definition.opcode ∉ before.opcodes ∧ definition.opcode ∉ added.map Definition.opcode := by
    have := h'.fresh definition hmem
    rwa [h.opcodes, List.mem_append, not_or] at this
  refine ⟨?_, ?_, ?_⟩
  · rw [h'.entries, h.entries, List.map_append, List.append_assoc]
  · intro definition hmem
    rcases List.mem_append.mp hmem with hadded | hmore
    · exact h.fresh definition hadded
    · exact (hfresh definition hmore).1
  · rw [List.map_append, List.nodup_append']
    refine ⟨h.nodup, h'.nodup, ?_⟩
    intro opcode hadded hmore
    obtain ⟨definition, hmem, rfl⟩ := List.mem_map.mp hmore
    exact (hfresh definition hmem).2 hadded

/-- What a registry has under an opcode stays there. -/
theorem get?_eq_some (h : before.ExtendedBy added after) {opcode : String}
    {definition : Definition} (hget : before.get? opcode = some definition) :
    after.get? opcode = some definition := by
  unfold get? at hget ⊢
  rw [h.entries, List.lookup_append, hget]
  rfl

end ExtendedBy

theorem extendedBy_nil_iff : before.ExtendedBy [] after ↔ after = before := by
  constructor
  · intro h
    have := h.entries
    rw [List.map_nil, List.append_nil] at this
    cases before
    cases after
    exact congrArg Registry.mk this
  · rintro rfl
    exact .refl _

theorem contains_eq_true_iff (registry : Registry) (opcode : String) :
    registry.contains opcode = true ↔ opcode ∈ registry.opcodes := by
  simp [contains]

theorem extendedBy_put {registry : Registry} {definition : Definition}
    (h : definition.opcode ∉ registry.opcodes) :
    registry.ExtendedBy [definition] (registry.put definition.opcode definition) := by
  have hcontains : ¬registry.contains definition.opcode = true := by
    rwa [contains_eq_true_iff]
  refine ⟨?_, ?_, ?_⟩
  · rw [put, if_neg hcontains]
    rfl
  · simpa using h
  · simp

/-- Definitions under opcodes that are new, and no two of them the same, replace nothing. -/
theorem extendedBy_putAll {registry : Registry} {definitions : List Definition}
    (hfresh : ∀ definition ∈ definitions, definition.opcode ∉ registry.opcodes)
    (hnodup : (definitions.map Definition.opcode).Nodup) :
    registry.ExtendedBy definitions (registry.putAll definitions) := by
  induction definitions generalizing registry with
  | nil => exact .refl registry
  | cons definition rest ih =>
    have hfirst : registry.ExtendedBy [definition] (registry.put definition.opcode definition) :=
      extendedBy_put (hfresh definition List.mem_cons_self)
    rw [List.map_cons, List.nodup_cons] at hnodup
    -- The opcodes of the rest are new to the registry that has the first definition, too.
    refine hfirst.trans (ih ?_ hnodup.2)
    intro other hmem
    rw [hfirst.opcodes, List.mem_append, not_or]
    refine ⟨hfresh other (List.mem_cons_of_mem _ hmem), ?_⟩
    intro hsame
    apply hnodup.1
    rw [← List.mem_singleton.mp hsame]
    exact List.mem_map_of_mem hmem

/-- No clash is found exactly if every opcode is new to those seen, and no two are the same. -/
theorem firstClash_eq_none_iff (seen : List String) (imported : List (String × Definition)) :
    firstClash seen imported = none ↔
      (∀ definition ∈ imported.map Prod.snd, definition.opcode ∉ seen) ∧
        ((imported.map Prod.snd).map Definition.opcode).Nodup := by
  induction imported generalizing seen with
  | nil => simp [firstClash]
  | cons entry rest ih =>
    obtain ⟨path, definition⟩ := entry
    by_cases hseen : definition.opcode ∈ seen
    · simp [firstClash, hseen]
    · simp only [firstClash, List.contains_eq_mem, hseen, decide_false, ih, List.map_cons,
        List.forall_mem_cons, List.nodup_cons, List.mem_append, List.mem_singleton, not_or,
        not_false_eq_true, true_and, Bool.false_eq_true, if_false]
      constructor
      · rintro ⟨hrest, hnodup⟩
        refine ⟨fun other hmem => (hrest other hmem).1, ?_, hnodup⟩
        intro hagain
        obtain ⟨other, hmem, hsame⟩ := List.mem_map.mp hagain
        exact (hrest other hmem).2 hsame
      · rintro ⟨hrest, hnew, hnodup⟩
        refine ⟨fun other hmem => ⟨hrest other hmem, ?_⟩, hnodup⟩
        intro hsame
        apply hnew
        rw [← hsame]
        exact List.mem_map_of_mem hmem

end Registry

/-! ## What calls add -/

namespace Call

variable {ε ε' α β : Type}

/-- A call that answers adds definitions to the registry, which its answer tells; one that fails
leaves the registry as it was. -/
def Adds (call : Call ε α) (added : α → List Definition) : Prop :=
  ∀ ledger, match call.on ledger with
    | (.ok a, after) => ledger.registry.ExtendedBy (added a) after.registry
    | (.error _, after) => after.registry = ledger.registry

variable {call : Call ε α} {added : α → List Definition}

theorem Adds.pure {a : α} (h : added a = []) : (pure a : Call ε α).Adds added := by
  intro ledger
  rw [on_pure]
  dsimp only
  rw [h]
  exact .refl _

theorem Adds.throw (e : ε) : (throw e : Call ε α).Adds added := by
  intro ledger
  rw [on_throw]

theorem Adds.adapt (h : call.Adds added) (f : ε → ε') : Call.Adds (call.adapt f) added := by
  intro ledger
  have h := h ledger
  rw [on_adapt]
  generalize call.on ledger = result at h ⊢
  obtain ⟨e | a, after⟩ := result
  · exact h
  · exact h

/-- Steps that add nothing may stand in front of a call. -/
theorem Adds.after {next : α → Call ε β} {added : β → List Definition}
    (hcall : call.Adds fun _ => []) (hnext : ∀ a, (next a).Adds added) :
    (call >>= next).Adds added := by
  intro ledger
  have hcall := hcall ledger
  rw [on_bind]
  generalize call.on ledger = result at hcall ⊢
  obtain ⟨e | a, middle⟩ := result
  · exact hcall
  · have hsame : middle.registry = ledger.registry := Registry.extendedBy_nil_iff.mp hcall
    have hnext := hnext a middle
    dsimp only
    rwa [hsame] at hnext

/-- The answer of a call may be turned into another that tells of the same definitions. -/
theorem Adds.answering {f : α → β} {added' : β → List Definition} (hcall : call.Adds added)
    (hf : ∀ a, added' (f a) = added a) :
    Call.Adds (do let a ← call; return f a) added' := by
  intro ledger
  have hcall := hcall ledger
  rw [on_bind]
  generalize call.on ledger = result at hcall ⊢
  obtain ⟨e | a, after⟩ := result
  · exact hcall
  · change ledger.registry.ExtendedBy (added' (f a)) after.registry
    rw [hf]
    exact hcall

theorem adds_importing (importer : Importer) (path : String) :
    (importing importer path).Adds fun _ => [] := by
  intro ledger
  rw [on_importing]
  cases (importer.load path).1 with
  | ok definition => exact .refl _
  | error failure => rfl

theorem adds_importAll (importer : Importer) (paths : List String) :
    (importAll importer paths).Adds fun _ => [] := by
  unfold importAll
  induction paths with
  | nil => exact .pure rfl
  | cons path rest ih =>
    rw [List.mapM_cons]
    refine .after ?_ fun entry => .answering ih fun _ => rfl
    exact .answering (adds_importing importer path) fun _ => rfl

/-- Registering adds the definition, and only under a new opcode. -/
theorem adds_register (definition : Definition) (file : Option String) :
    (register definition file).Adds fun _ => [definition] := by
  intro ledger
  rw [on_register]
  by_cases hcontains : ledger.registry.contains definition.opcode = true
  · rw [if_pos hcontains]
  · rw [if_neg hcontains]
    rw [Registry.contains_eq_true_iff] at hcontains
    exact Registry.extendedBy_put hcontains

theorem adds_loadFile (importer : Importer) (path : String) :
    (loadFile importer path).Adds fun definition => [definition] := by
  unfold loadFile
  refine .after (adds_importing importer path) fun definition => ?_
  exact .answering (.adapt (adds_register definition (some path)) _) fun _ => rfl

/-- Loading a folder adds what it answers: the check has seen to it that all opcodes are new. -/
theorem adds_loadFolder (importer : Importer) (folder : String) (pattern : Option String) :
    (loadFolder importer folder pattern).Adds id := by
  unfold loadFolder
  dsimp only
  cases importer.files.find importer.host.current (.ofString folder)
      (Registry.patternOr importer pattern) with
  | error fault => exact .throw _
  | ok found =>
    refine .after (.adapt (adds_importAll importer _) _) fun imported => ?_
    intro ledger
    rw [on_bind, on_get]
    dsimp only
    cases hclash : Registry.firstClash ledger.registry.opcodes imported with
    | some error => rfl
    | none =>
      obtain ⟨hfresh, hnodup⟩ := (Registry.firstClash_eq_none_iff _ _).mp hclash
      simp only [on_bind, on_store, on_record, on_pure]
      exact Registry.extendedBy_putAll hfresh hnodup

end Call

end CutsceneCatalog
