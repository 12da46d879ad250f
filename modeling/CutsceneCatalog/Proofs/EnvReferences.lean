import CutsceneCatalog.Settings.EnvFile
import Mathlib.Tactic.SplitIfs

/-!
# What a file of assignments looks up

The environment is looked at only where a value refers to a name that no line above has
(`EnvFile.lookedUp`): environments that agree on those names give the same assignments
(`EnvFile.read_congr`).
-/

namespace CutsceneCatalog

namespace EnvFile

/-- The names that a value refers to. -/
def references : (fuel : Nat) → List Char → List String
  | 0, _ => []
  | _ + 1, [] => []
  | fuel + 1, '$' :: '\x7b' :: rest =>
      match reference? rest with
      | some (name, _, rest) => name :: references fuel rest
      | none => references fuel ('\x7b' :: rest)
  | fuel + 1, _ :: rest => references fuel rest

/-- The names that the value of an assignment refers to. -/
def Binding.references (binding : Binding) : List String :=
  match binding.value with
  | none => []
  | some value => EnvFile.references value.toList.length value.toList

/-- The names that assignments refer to before any line has them; `above` are the names of the lines
above. -/
def referencesBelow (above : List String) : List Binding → List String
  | [] => []
  | binding :: rest =>
      binding.references.filter (fun name => !above.contains name) ++
        referencesBelow (binding.name :: above) rest

/-- The names that a file looks up in the environment. -/
def lookedUp (cs : List Char) : List String := referencesBelow [] (bindings cs)

theorem resolve_congr {known other : String → String → String} {fuel : Nat} {cs : List Char}
    (h : ∀ name ∈ references fuel cs, known name = other name) :
    resolve known fuel cs = resolve other fuel cs := by
  induction fuel, cs using references.induct with
  | case1 cs => rfl
  | case2 fuel => rfl
  | case3 fuel rest name standIn rest' href ih =>
    simp only [references, href, List.mem_cons, forall_eq_or_imp] at h
    simp only [resolve, href, h.1, ih h.2]
  | case4 fuel rest href ih =>
    simp only [references, href] at h
    simp only [resolve, href, ih h]
  | case5 fuel c rest hplain ih =>
    rw [references.eq_4 _ _ _ hplain] at h
    rw [resolve.eq_4 _ _ _ _ hplain, resolve.eq_4 _ _ _ _ hplain, ih h]

theorem lookup_map_put (assigned : Assigned) (name : String) (value : Option String)
    (other : String) :
    (assigned.map fun (key, old) => if key = name then (key, value) else (key, old)).lookup
        other =
      if other = name then (assigned.lookup name).map fun _ => value
      else assigned.lookup other := by
  induction assigned with
  | nil => split_ifs <;> rfl
  | cons first rest ih =>
    obtain ⟨key, old⟩ := first
    rw [List.map_cons, List.lookup_cons, List.lookup_cons, List.lookup_cons]
    by_cases hkey : key = name
    · subst hkey
      rw [if_pos rfl]
      by_cases hother : other = key
      · simp [hother]
      · rw [beq_eq_false_iff_ne.mpr hother]
        dsimp only
        rw [ih, if_neg hother, if_neg hother]
    · rw [if_neg hkey, beq_eq_false_iff_ne.mpr (Ne.symm hkey)]
      dsimp only
      rw [ih]
      by_cases hother : other = key
      · simp [hother, hkey]
      · rw [beq_eq_false_iff_ne.mpr hother]

theorem lookup_put (assigned : Assigned) (name : String) (value : Option String)
    (other : String) :
    (assigned.put name value).lookup other =
      if other = name then some value else assigned.lookup other := by
  unfold Assigned.put
  split
  · next hname =>
    obtain ⟨old, hold⟩ := Option.isSome_iff_exists.mp hname
    rw [lookup_map_put, hold]
    rfl
  · next hname =>
    rw [Option.not_isSome_iff_eq_none] at hname
    rw [List.lookup_append, List.lookup_cons, List.lookup_nil]
    split_ifs with hother
    · rw [hother, hname, beq_self_eq_true]
      rfl
    · rw [beq_eq_false_iff_ne.mpr hother]
      exact Option.or_none

theorem exists_assign_eq_put (vars : Variables) (assigned : Assigned) (binding : Binding) :
    ∃ value, assign vars assigned binding = assigned.put binding.name value :=
  ⟨_, rfl⟩

theorem assign_congr {vars other : Variables} {assigned : Assigned} {binding : Binding}
    (h : ∀ name ∈ binding.references,
      assigned.lookup name = none → vars.get? name = other.get? name) :
    assign vars assigned binding = assign other assigned binding := by
  obtain ⟨name, _ | value⟩ := binding
  · simp only [assign, Option.map_none]
  · have hresolve : resolve (knownValue vars assigned) value.toList.length value.toList =
        resolve (knownValue other assigned) value.toList.length value.toList := by
      refine resolve_congr fun key hkey => funext fun standIn => ?_
      unfold knownValue
      cases hlookup : assigned.lookup key with
      | some value => rfl
      | none =>
        dsimp only
        rw [h key hkey hlookup]
    simp only [assign, Option.map_some, hresolve]

theorem foldl_assign_congr {vars other : Variables} {bindings : List Binding}
    {assigned : Assigned} (above : List String)
    (habove : ∀ name ∈ above, assigned.lookup name ≠ none)
    (h : ∀ name ∈ referencesBelow above bindings, vars.get? name = other.get? name) :
    bindings.foldl (assign vars) assigned = bindings.foldl (assign other) assigned := by
  induction bindings generalizing assigned above with
  | nil => rw [List.foldl_nil, List.foldl_nil]
  | cons binding rest ih =>
    simp only [referencesBelow, List.mem_append, List.mem_filter] at h
    have hfirst : assign vars assigned binding = assign other assigned binding := by
      -- The name of a line above is found among the assignments, not in the environment.
      refine assign_congr fun name hname hlookup => h name (Or.inl ⟨hname, ?_⟩)
      have hnotMem : name ∉ above := fun hmem => habove name hmem hlookup
      simpa using hnotMem
    rw [List.foldl_cons, List.foldl_cons, hfirst]
    refine ih (binding.name :: above) ?_ fun name hname => h name (Or.inr hname)
    intro name hname
    obtain ⟨value, hassign⟩ := exists_assign_eq_put other assigned binding
    rw [hassign, lookup_put]
    split_ifs with hsame
    · exact Option.some_ne_none _
    · exact habove name ((List.mem_cons.mp hname).resolve_left hsame)

/-- Environments that agree on what a file looks up give the same assignments. -/
theorem read_congr {vars other : Variables} {cs : List Char}
    (h : ∀ name ∈ lookedUp cs, vars.get? name = other.get? name) :
    read vars cs = read other cs :=
  foldl_assign_congr [] (by simp) h

end EnvFile

end CutsceneCatalog
