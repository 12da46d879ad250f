import CutsceneCatalog.Heading
import Mathlib.Data.List.Basic

/-!
# Fields by the first child of their name

The first child of a name decides a field, and it decides alone: where it is missing, or where its
text is malformed, the field has its default, whatever children of that name come later.
`Element.FieldIs` says so case by case, without the search that finds the child, and
`Element.fieldIs_field` is the statement that the reading of a field agrees with it.

Everything that is read from fields therefore rests on the identifier and on the texts of a few
first children.  `Element.AgreeOn` is the relation between two elements that have these in common;
`Element.find?_splice` says which children may come and go for that.
-/

namespace CutsceneCatalog

namespace Element

variable {α : Type} {e other : Element} {name : String} {names : List String}

/-- The value that the children of an element give to a field. -/
inductive FieldIs (e : Element) (name : String) (read : String → Except ScalarError α)
    (fallback : α) : α → Prop
  /-- No child has the field's name. -/
  | missing (absent : ∀ child ∈ e.children, child.name ≠ name) :
      FieldIs e name read fallback fallback
  /-- The first child of the name says the value. -/
  | wellFormed {before after : List Element} {first : Element} {value : α}
      (children : e.children = before ++ first :: after) (named : first.name = name)
      (earlier : ∀ child ∈ before, child.name ≠ name)
      (reads : read first.innerText = .ok value) : FieldIs e name read fallback value
  /-- The first child of the name says no value, and later ones are not asked. -/
  | malformed {before after : List Element} {first : Element} {error : ScalarError}
      (children : e.children = before ++ first :: after) (named : first.name = name)
      (earlier : ∀ child ∈ before, child.name ≠ name)
      (refused : read first.innerText = .error error) : FieldIs e name read fallback fallback

theorem find?_eq_some_iff {first : Element} :
    e.find? name = some first ↔
      ∃ before after, e.children = before ++ first :: after ∧ first.name = name ∧
        ∀ child ∈ before, child.name ≠ name := by
  rw [find?, List.find?_eq_some_iff_append]
  simp only [beq_iff_eq, Bool.not_eq_true', beq_eq_false_iff_ne]
  constructor
  · rintro ⟨named, before, after, children, earlier⟩
    exact ⟨before, after, children, named, earlier⟩
  · rintro ⟨before, after, children, named, earlier⟩
    exact ⟨named, before, after, children, earlier⟩

theorem find?_eq_none_iff : e.find? name = none ↔ ∀ child ∈ e.children, child.name ≠ name := by
  simp [find?]

/-- One child more is not seen by a search for a name, if it is of another name, or behind one of
the same. -/
theorem find?_splice {before after : List Element} {child : Element}
    (h : child.name = name → ∃ first ∈ before, first.name = name) :
    (before ++ child :: after).find? (fun child => child.name == name) =
      (before ++ after).find? (fun child => child.name == name) := by
  rw [List.find?_append, List.find?_append, List.find?_cons]
  by_cases hname : child.name = name
  · obtain ⟨first, hfirst, hsame⟩ := h hname
    have hsome : (before.find? fun child => child.name == name).isSome := by
      rw [List.find?_isSome]
      exact ⟨first, hfirst, beq_iff_eq.mpr hsame⟩
    obtain ⟨found, hfound⟩ := Option.isSome_iff_exists.mp hsome
    rw [hfound, Option.some_or, Option.some_or]
  · rw [beq_false_of_ne hname]

theorem fieldIs_field (e : Element) (name : String) (read : String → Except ScalarError α)
    (fallback : α) : e.FieldIs name read fallback (e.field name read fallback) := by
  unfold field
  cases hfind : e.find? name with
  | none => exact .missing (find?_eq_none_iff.mp hfind)
  | some first =>
    obtain ⟨before, after, children, named, earlier⟩ := find?_eq_some_iff.mp hfind
    dsimp only
    cases hread : read first.innerText with
    | ok value => exact .wellFormed children named earlier hread
    | error error => exact .malformed children named earlier hread

/-- No other value is given to a field than the one that is read. -/
theorem fieldIs_iff {read : String → Except ScalarError α} {fallback value : α} :
    e.FieldIs name read fallback value ↔ e.field name read fallback = value := by
  constructor
  · intro h
    unfold field
    cases h with
    | missing absent => rw [find?_eq_none_iff.mpr absent]
    | wellFormed children named earlier reads =>
      rw [find?_eq_some_iff.mpr ⟨_, _, children, named, earlier⟩]
      simp only [reads]
    | malformed children named earlier refused =>
      rw [find?_eq_some_iff.mpr ⟨_, _, children, named, earlier⟩]
      simp only [refused]
  · rintro rfl
    exact e.fieldIs_field name read fallback

/-! ## Elements that agree -/

/-- Two elements with the same identifier whose first children of the given names have the same
texts, as far as there are such children. -/
structure AgreeOn (names : List String) (e other : Element) : Prop where
  id : other.attribute? "id" = e.attribute? "id"
  texts : ∀ name ∈ names, (other.find? name).map innerText = (e.find? name).map innerText

/-- Elements that differ only in their children agree where the first children are the same. -/
theorem agreeOn_of_find?_eq {children : List Element}
    (h : ∀ name ∈ names,
      children.find? (fun child => child.name == name) = e.find? name) :
    e.AgreeOn names { e with children := children } where
  id := rfl
  texts := fun name hname => congrArg (Option.map Element.innerText) (h name hname)

theorem field_eq (e : Element) (name : String) (read : String → Except ScalarError α)
    (fallback : α) :
    e.field name read fallback = ((e.find? name).map innerText).elim fallback fun text =>
      match read text with
      | .ok value => value
      | .error _ => fallback := by
  unfold field
  cases e.find? name <;> rfl

theorem AgreeOn.field_congr (h : AgreeOn names e other) (hname : name ∈ names)
    (read : String → Except ScalarError α) (fallback : α) :
    other.field name read fallback = e.field name read fallback := by
  rw [field_eq, field_eq, h.texts name hname]

end Element

/-- A heading that says what an element says. -/
structure Heading.IsOf (e : Element) (heading : Heading) : Prop where
  id : heading.id = (e.attribute? "id").getD ""
  displayName : e.FieldIs "displayName" .ok "" heading.displayName
  description : e.FieldIs "description" .ok "" heading.description

theorem Heading.isOf_ofElement (e : Element) : (Heading.ofElement e).IsOf e where
  id := rfl
  displayName := e.fieldIs_field "displayName" .ok ""
  description := e.fieldIs_field "description" .ok ""

theorem Heading.ofElement_eq_of_agreeOn {e other : Element} {names : List String}
    (h : Element.AgreeOn names e other) (hdisplayName : "displayName" ∈ names)
    (hdescription : "description" ∈ names) : Heading.ofElement other = Heading.ofElement e := by
  have hid : other.idOr "" = e.idOr "" := congrArg (·.getD "") h.id
  have hdisplay := h.field_congr hdisplayName Except.ok ""
  have hdescribe := h.field_congr hdescription Except.ok ""
  simp only [Heading.ofElement, hid, Element.textField, hdisplay, hdescribe]

end CutsceneCatalog
