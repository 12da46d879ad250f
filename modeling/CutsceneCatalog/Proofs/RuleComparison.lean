import CutsceneCatalog.Proofs.RuleReading

/-!
# Two readings of rules

Two readings, of different elements, at different depths or under different limits, give outcomes
that are alike if the two agree level by level.  What has to be agreed on is little: the names,
which of the two stands too deep, what the rule of a level takes from its element, and that the
children are read alike one by one.  `Rule.ofElement_alike_of_level` is the step from the children
to the element; a statement about two readings follows from it by induction on the element
(`Element.induct`).
-/

namespace CutsceneCatalog

/-- Two readings with the same answers, whose errors differ by a renaming, differ by no more. -/
theorem Alike.eq_mapError {ε δ α : Type} {f : ε → δ} {x : Except ε (Option α)}
    {y : Except δ (Option α)} (h : Alike (fun e d => d = f e) (Option.Rel Eq) x y) :
    y = x.mapError f := by
  cases h with
  | error hfault =>
    rw [hfault]
    rfl
  | ok hsame =>
    cases hsame with
    | some hvalue =>
      rw [hvalue]
      rfl
    | none => rfl

namespace Rule

variable {errors : ImportError → ImportError → Prop} {answers : Rule → Rule → Prop}
  {maxDepth maxDepth' depth depth' : Int} {file file' : Option String} {e other : Element}
  {kind : RuleKind}

theorem ofChildren_alike {children others : List Element}
    (h : List.Forall₂ (fun child other => Alike errors (Option.Rel answers)
      (ofElement maxDepth file depth child) (ofElement maxDepth' file' depth' other))
      children others) :
    Alike errors (List.Forall₂ answers)
      (ofChildren maxDepth file depth children) (ofChildren maxDepth' file' depth' others) := by
  induction h with
  | nil => exact .ok .nil
  | @cons child other rest rest' hfirst _ ih =>
    rw [ofChildren_cons, ofChildren_cons]
    refine hfirst.bind fun first first' hsame => ih.bind fun rules rules' hrest => .ok ?_
    cases hsame with
    | some hrule => exact .cons hrule hrest
    | none => exact hrest

theorem ofKind_alike
    (hcompose : ∀ found found', List.Forall₂ answers found found' →
      answers (compose kind e found) (compose kind other found'))
    (hchildren : List.Forall₂ (fun child other => Alike errors (Option.Rel answers)
      (ofElement maxDepth file (depth + 1) child) (ofElement maxDepth' file' (depth' + 1) other))
      e.children other.children) :
    Alike errors answers (ofKind maxDepth file kind depth e)
      (ofKind maxDepth' file' kind depth' other) := by
  by_cases hkind : kind = .preInstruction
  · subst hkind
    rw [ofKind_preInstruction, ofKind_preInstruction]
    exact .ok (hcompose [] [] .nil)
  · rw [ofKind_of_ne hkind, ofKind_of_ne hkind]
    exact (ofChildren_alike hchildren).map hcompose

/-- Elements of one name are read alike if the children are and the level itself is. -/
theorem ofElement_alike_of_level (hname : other.name = e.name)
    (hunknown : errors ⟨.rule (.notARule e.name), file⟩ ⟨.rule (.notARule e.name), file'⟩)
    (hlimit : depth' ≤ maxDepth' ↔ depth ≤ maxDepth)
    (hdeep : errors ⟨.rule (.tooDeep depth maxDepth), file⟩
      ⟨.rule (.tooDeep depth' maxDepth'), file'⟩)
    (hcompose : depth ≤ maxDepth → ∀ kind : RuleKind, ∀ found found',
      List.Forall₂ answers found found' →
        answers (compose kind e found) (compose kind other found'))
    (hchildren : depth ≤ maxDepth → List.Forall₂ (fun child other =>
      Alike errors (Option.Rel answers) (ofElement maxDepth file (depth + 1) child)
        (ofElement maxDepth' file' (depth' + 1) other)) e.children other.children) :
    Alike errors (Option.Rel answers) (ofElement maxDepth file depth e)
      (ofElement maxDepth' file' depth' other) := by
  rcases RuleChild.name_cases e.name with ⟨kind, hkind⟩ | hfield | ⟨hrule, hfield⟩
  · have hother : other.name = kind.tag := hname.trans hkind
    by_cases hdepth : depth ≤ maxDepth
    · rw [ofElement_of_rule hkind hdepth, ofElement_of_rule hother (hlimit.mpr hdepth)]
      exact (ofKind_alike (hcompose hdepth kind) (hchildren hdepth)).map fun _ _ => .some
    · have hdepth' : ¬depth' ≤ maxDepth' := fun h => hdepth (hlimit.mp h)
      rw [ofElement_of_tooDeep hkind (Int.not_le.mp hdepth),
        ofElement_of_tooDeep hother (Int.not_le.mp hdepth')]
      exact .error hdeep
  · rw [ofElement_of_field hfield, ofElement_of_field (hname ▸ hfield)]
    exact .ok .none
  · rw [ofElement_of_unknown hrule hfield, ofElement_of_unknown (hname ▸ hrule) (hname ▸ hfield),
      hname]
    exact .error hunknown

end Rule

end CutsceneCatalog
