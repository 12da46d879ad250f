import CutsceneCatalog.Proofs.RegistryCalls

/-!
# Histories of a registry

Requests made to a registry one after the other, in any order and with any outcomes, each of them
with files of its own.  One request extends the registry by the definitions it answers
(`Request.extendedBy_performed`), so a whole history extends the empty registry by all that were
answered.

`Registry.wellKept_after` is the main statement: a registry is in order after any history, what it
has under an opcode stays there for ever, and a request that fails leaves no trace in it.
-/

namespace CutsceneCatalog

/-- What may be asked of a registry. -/
inductive Request
  | register (definition : Definition) (file : Option String)
  | loadFile (importer : Importer) (path : String)
  | loadFolder (importer : Importer) (folder : String) (pattern : Option String)

namespace Request

/-- The call that a request makes; it answers the definitions that are new. -/
def call : Request → Call LoadFailure (List Definition)
  | .register definition file => do
      (Call.register definition file).adapt fun error => LoadFailure.failed (.refused error)
      return [definition]
  | .loadFile importer path => do
      let definition ← (Call.loadFile importer path).adapt LoadFailure.failed
      return [definition]
  | .loadFolder importer folder pattern => Call.loadFolder importer folder pattern

theorem adds_call (request : Request) : request.call.Adds id := by
  cases request with
  | register definition file =>
    exact .answering (.adapt (Call.adds_register definition file) _) fun _ => rfl
  | loadFile importer path =>
    exact .answering (.adapt (Call.adds_loadFile importer path) _) fun _ => rfl
  | loadFolder importer folder pattern => exact Call.adds_loadFolder importer folder pattern

/-- The definitions that a request answers, and the ledger it leaves; if it fails, it answers
none. -/
def performed (request : Request) (ledger : Ledger) : List Definition × Ledger :=
  ((request.call.on ledger).1.toOption.getD [], (request.call.on ledger).2)

/-- Makes requests one after the other, whether or not some of them fail: the definitions answered,
in order, and the ledger at the end. -/
def performAll (ledger : Ledger) : List Request → List Definition × Ledger
  | [] => ([], ledger)
  | request :: rest =>
      let (answered, next) := request.performed ledger
      let (others, last) := performAll next rest
      (answered ++ others, last)

/-- One request extends the registry by what it answers. -/
theorem extendedBy_performed (request : Request) (ledger : Ledger) :
    ledger.registry.ExtendedBy (request.performed ledger).1
      (request.performed ledger).2.registry := by
  have hadds := request.adds_call ledger
  unfold performed
  generalize request.call.on ledger = result at hadds ⊢
  obtain ⟨failure | answered, next⟩ := result
  · exact Registry.extendedBy_nil_iff.mpr hadds
  · exact hadds

theorem performAll_cons (ledger : Ledger) (request : Request) (rest : List Request) :
    performAll ledger (request :: rest) =
      ((request.performed ledger).1 ++ (performAll (request.performed ledger).2 rest).1,
        (performAll (request.performed ledger).2 rest).2) := rfl

/-- Any number of requests extend the registry by what they answer. -/
theorem extendedBy_performAll (requests : List Request) (ledger : Ledger) :
    ledger.registry.ExtendedBy (performAll ledger requests).1
      (performAll ledger requests).2.registry := by
  induction requests generalizing ledger with
  | nil => exact .refl _
  | cons request rest ih =>
    rw [performAll_cons]
    exact (request.extendedBy_performed ledger).trans (ih _)

theorem performAll_append (ledger : Ledger) (earlier later : List Request) :
    (performAll ledger (earlier ++ later)).2 =
      (performAll (performAll ledger earlier).2 later).2 := by
  induction earlier generalizing ledger with
  | nil => rfl
  | cons request rest ih =>
    rw [List.cons_append, performAll_cons, performAll_cons]
    exact ih _

end Request

/-- The ledger after requests, when there was nothing before them. -/
def Ledger.after (requests : List Request) : Ledger :=
  (Request.performAll ⟨.empty, []⟩ requests).2

/-- The definitions that requests answer, in order, when there was nothing before them. -/
def Request.answered (requests : List Request) : List Definition :=
  (Request.performAll ⟨.empty, []⟩ requests).1

namespace Registry

/-- A registry that holds some definitions in this order, each under its own opcode and no two under
one, and finds each of them there. -/
structure WellKept (registry : Registry) (registered : List Definition) : Prop where
  key_eq_opcode : ∀ entry ∈ registry.entries, entry.1 = entry.2.opcode
  opcodes_nodup : registry.opcodes.Nodup
  definitions_eq : registry.definitions = registered
  opcodes_eq : registry.opcodes = registered.map Definition.opcode
  size_eq : registry.size = registered.length
  get?_eq_some_iff : ∀ opcode definition, registry.get? opcode = some definition ↔
    definition ∈ registered ∧ definition.opcode = opcode

/-- Under distinct opcodes, every definition is found. -/
theorem lookup_eq_some_iff {registered : List Definition}
    (hnodup : (registered.map Definition.opcode).Nodup) (opcode : String)
    (definition : Definition) :
    (registered.map fun definition => (definition.opcode, definition)).lookup opcode =
        some definition ↔
      definition ∈ registered ∧ definition.opcode = opcode := by
  induction registered with
  | nil => simp
  | cons first rest ih =>
    rw [List.map_cons, List.nodup_cons] at hnodup
    rw [List.map_cons, List.lookup_cons, List.mem_cons]
    by_cases hfirst : opcode = first.opcode
    · rw [beq_iff_eq.mpr hfirst]
      dsimp only
      rw [Option.some_inj]
      constructor
      · rintro rfl
        exact ⟨Or.inl rfl, hfirst.symm⟩
      · rintro ⟨rfl | hrest, hopcode⟩
        · rfl
        · -- No other definition has the first one's opcode.
          refine absurd ?_ hnodup.1
          rw [← hfirst, ← hopcode]
          exact List.mem_map_of_mem hrest
    · rw [beq_eq_false_iff_ne.mpr hfirst]
      dsimp only
      rw [ih hnodup.2]
      constructor
      · rintro ⟨hrest, hopcode⟩
        exact ⟨Or.inr hrest, hopcode⟩
      · rintro ⟨rfl | hrest, hopcode⟩
        · exact absurd hopcode.symm hfirst
        · exact ⟨hrest, hopcode⟩

theorem ExtendedBy.wellKept {registry : Registry} {registered : List Definition}
    (h : empty.ExtendedBy registered registry) : registry.WellKept registered := by
  have hentries : registry.entries = registered.map fun definition =>
      (definition.opcode, definition) := h.entries
  have hopcodes : registry.opcodes = registered.map Definition.opcode := h.opcodes
  refine ⟨?_, ?_, h.definitions, hopcodes, ?_, ?_⟩
  · intro entry hmem
    rw [hentries] at hmem
    obtain ⟨definition, -, rfl⟩ := List.mem_map.mp hmem
    rfl
  · rw [hopcodes]
    exact h.nodup
  · rw [size, hentries, List.length_map]
  · intro opcode definition
    rw [get?, hentries]
    exact lookup_eq_some_iff h.nodup opcode definition

/-- After any requests to an empty registry, it holds exactly what they answered, in order and under
distinct opcodes.  Whatever requests come later, an opcode keeps its definition; and a request that
fails leaves the registry as it was. -/
theorem wellKept_after (requests : List Request) :
    (Ledger.after requests).registry.WellKept (Request.answered requests) ∧
      (∀ later opcode definition,
        (Ledger.after requests).registry.get? opcode = some definition →
          (Ledger.after (requests ++ later)).registry.get? opcode = some definition) ∧
      ∀ (request : Request) failure next,
        request.call.on (Ledger.after requests) = (.error failure, next) →
          next.registry = (Ledger.after requests).registry := by
  refine ⟨?_, ?_, ?_⟩
  · exact (Request.extendedBy_performAll requests ⟨.empty, []⟩).wellKept
  · intro later opcode definition hget
    unfold Ledger.after at hget ⊢
    rw [Request.performAll_append]
    exact (Request.extendedBy_performAll later _).get?_eq_some hget
  · intro request failure next hfails
    have hadds := request.adds_call (Ledger.after requests)
    rw [hfails] at hadds
    exact hadds

end Registry

end CutsceneCatalog
