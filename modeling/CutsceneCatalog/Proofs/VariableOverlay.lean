import CutsceneCatalog.Settings.Variables
import Mathlib.Data.List.TakeWhile

/-!
# Laying assignments over an environment

Assignments are made one after the other, up to the first that an environment cannot hold
(`Variables.assignAll_eq`), and of what is set the last value of a name counts, else the one that
was there (`Variables.get?_setAll`).
-/

namespace CutsceneCatalog

namespace Variables

/-! ## Setting variables -/

/-- Sets variables one after the other. -/
def setAll (vars : Variables) (assignments : List (String × String)) : Variables :=
  assignments.foldl (fun vars assignment => vars.set assignment.1 assignment.2) vars

theorem setAll_append (vars : Variables) (earlier later : List (String × String)) :
    vars.setAll (earlier ++ later) = (vars.setAll earlier).setAll later :=
  List.foldl_append

theorem lookup_filter_ne {name other : String} (hne : other ≠ name) (vars : Variables) :
    (vars.filter fun (key, _) => key != name).lookup other = vars.lookup other := by
  induction vars with
  | nil => rfl
  | cons first rest ih =>
    obtain ⟨key, value⟩ := first
    by_cases hkey : key = name
    · subst hkey
      rw [List.filter_cons_of_neg (by simp), ih, List.lookup_cons, beq_eq_false_iff_ne.mpr hne]
    · rw [List.filter_cons_of_pos (by simpa using hkey), List.lookup_cons, List.lookup_cons, ih]

theorem get?_set (vars : Variables) (name value other : String) :
    (vars.set name value).get? other = if other = name then some value else vars.get? other := by
  unfold get? set
  rw [List.lookup_cons]
  by_cases hother : other = name
  · rw [beq_iff_eq.mpr hother, if_pos hother]
  · rw [beq_eq_false_iff_ne.mpr hother, if_neg hother]
    exact lookup_filter_ne hother vars

/-- Of what is set, the last value of a name counts. -/
theorem get?_setAll (vars : Variables) (assignments : List (String × String)) (name : String) :
    (vars.setAll assignments).get? name =
      (assignments.reverse.lookup name).or (vars.get? name) := by
  induction assignments generalizing vars with
  | nil => rfl
  | cons first rest ih =>
    obtain ⟨key, value⟩ := first
    have hset : vars.setAll ((key, value) :: rest) = (vars.set key value).setAll rest := rfl
    rw [hset, ih, get?_set, List.reverse_cons, List.lookup_append, List.lookup_cons,
      List.lookup_nil]
    -- The first value of a name counts only if no later one is set.
    by_cases hname : name = key
    · rw [if_pos hname, beq_iff_eq.mpr hname]
      cases rest.reverse.lookup name <;> rfl
    · rw [if_neg hname, beq_eq_false_iff_ne.mpr hname]
      cases rest.reverse.lookup name <;> rfl

theorem lookup_reverse_eq_none_iff {assignments : List (String × String)} {name : String} :
    assignments.reverse.lookup name = none ↔ name ∉ assignments.map Prod.fst := by
  rw [List.lookup_eq_none_iff, List.mem_map]
  constructor
  · rintro h ⟨assignment, hmem, rfl⟩
    exact bne_iff_ne.mp (h assignment (List.mem_reverse.mpr hmem)) rfl
  · intro h assignment hmem
    rw [bne_iff_ne]
    rintro rfl
    exact h ⟨assignment, List.mem_reverse.mp hmem, rfl⟩

theorem get?_setAll_of_notMem {vars : Variables} {assignments : List (String × String)}
    {name : String} (h : name ∉ assignments.map Prod.fst) :
    (vars.setAll assignments).get? name = vars.get? name := by
  rw [get?_setAll, lookup_reverse_eq_none_iff.mpr h, Option.none_or]

/-- Environments in which the same is set agree on a name if it is set or they agreed on it
before. -/
theorem get?_setAll_congr {vars other : Variables} {assignments : List (String × String)}
    {name : String}
    (h : name ∉ assignments.map Prod.fst → vars.get? name = other.get? name) :
    (vars.setAll assignments).get? name = (other.setAll assignments).get? name := by
  rw [get?_setAll, get?_setAll]
  cases hlookup : assignments.reverse.lookup name with
  | some value => rfl
  | none => rw [h (lookup_reverse_eq_none_iff.mp hlookup)]

/-! ## What an environment cannot hold -/

/-- Why an environment cannot hold an assignment, if it cannot. -/
def fault? (assignment : String × String) : Option Fault :=
  if assignment.1.toList.contains '\x00' || assignment.2.toList.contains '\x00' then
    some .nullCharacter
  else if assignment.1.toList.contains '=' then some .illegalName
  else if assignment.1 = "" then some .emptyName
  else none

/-- No null character is in the name or the value, and the name is not empty and has no equals sign
in it. -/
def Holdable (assignment : String × String) : Prop :=
  '\x00' ∉ assignment.1.toList ∧ '\x00' ∉ assignment.2.toList ∧ '=' ∉ assignment.1.toList ∧
    assignment.1 ≠ ""

theorem fault?_eq_none_iff {assignment : String × String} :
    fault? assignment = none ↔ Holdable assignment := by
  have hnull : (assignment.1.toList.contains '\x00' || assignment.2.toList.contains '\x00') =
      true ↔ '\x00' ∈ assignment.1.toList ∨ '\x00' ∈ assignment.2.toList := by
    rw [Bool.or_eq_true, List.contains_iff_mem, List.contains_iff_mem]
  unfold fault? Holdable
  rw [← and_assoc, ← not_or, ← hnull, ← List.contains_iff_mem]
  split_ifs with hfirst hsecond hthird
  · exact ⟨nofun, fun h => absurd hfirst h.1⟩
  · exact ⟨nofun, fun h => absurd hsecond h.2.1⟩
  · exact ⟨nofun, fun h => absurd hthird h.2.2⟩
  · exact ⟨fun _ => ⟨hfirst, hsecond, hthird⟩, fun _ => rfl⟩

theorem findSome?_fault?_eq_none_iff {assignments : List (String × String)} :
    assignments.findSome? fault? = none ↔ ∀ assignment ∈ assignments, Holdable assignment := by
  simp only [List.findSome?_eq_none_iff, fault?_eq_none_iff]

theorem assign_eq (vars : Variables) (name value : String) :
    vars.assign name value =
      match fault? (name, value) with
      | some fault => .error fault
      | none => .ok (vars.set name value) := by
  unfold assign fault?
  split_ifs <;> rfl

/-! ## Making assignments -/

/-- The names that have a value, with their values, in order. -/
def values (assigned : List (String × Option String)) : List (String × String) :=
  assigned.filterMap fun (name, value) => value.map fun value => (name, value)

/-- The assignments before the first one that an environment cannot hold. -/
def held (assignments : List (String × String)) : List (String × String) :=
  assignments.takeWhile fun assignment => (fault? assignment).isNone

/-- What has a value is assigned up to the first that the environment cannot hold, and there is a
failure if there is one. -/
theorem assignAll_eq (vars : Variables) (assigned : List (String × Option String)) :
    vars.assignAll assigned =
      (((values assigned).findSome? fault?).elim (.ok ()) .error,
        vars.setAll (held (values assigned))) := by
  induction assigned generalizing vars with
  | nil => rfl
  | cons first rest ih =>
    obtain ⟨name, _ | value⟩ := first
    · exact ih vars
    · have hvalues : values ((name, some value) :: rest) = (name, value) :: values rest := rfl
      rw [hvalues, assignAll, assign_eq, List.findSome?_cons, held, List.takeWhile_cons]
      cases hfault : fault? (name, value) with
      | some fault => rfl
      | none =>
        dsimp only [Option.isNone_none, if_true]
        exact ih (vars.set name value)

theorem held_eq_self {assignments : List (String × String)}
    (h : assignments.findSome? fault? = none) : held assignments = assignments := by
  rw [held, List.takeWhile_eq_self_iff]
  intro assignment hmem
  rw [List.findSome?_eq_none_iff.mp h assignment hmem]
  rfl

end Variables

end CutsceneCatalog
