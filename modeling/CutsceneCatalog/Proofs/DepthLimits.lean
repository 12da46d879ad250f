import CutsceneCatalog.Proofs.Offender
import CutsceneCatalog.Proofs.RuleComparison

/-!
# The depth limit of rules

A rule is refused where it stands deeper than the limit, and the depth counts from wherever the
reading starts.  `Rule.DepthLaws` collects what that means for an element of any shape: how high a
rule can get, which depth a refusal reports, what a greater limit changes, that only the distance
between the depth and the limit counts, when an element is accepted, and how far down the reading
looks.  `Rule.depthLaws` proves all six of every element.

Where a law compares two readings that succeed or fail together, they are compared level by level
(`Rule.ofElement_alike_of_level`).  A greater limit may turn a refusal into a rule, so that law has
a relation of its own, `Rule.Persists`.  When an element is accepted is settled by the list of its
visits instead (`Rule.refusal_ofElement`), of which `Element.ruleHeight` is the extent.
-/

namespace CutsceneCatalog

/-- The fault reported when everything stands `k` levels deeper and the limit is as much greater. -/
def RuleFault.lower (k : Int) : RuleFault → RuleFault
  | .notARule tag => .notARule tag
  | .tooDeep depth maxDepth => .tooDeep (depth + k) (maxDepth + k)

/-- The error reported when everything stands `k` levels deeper and the limit is as much greater. -/
def ImportError.lower (k : Int) : ImportError → ImportError
  | ⟨.rule fault, file⟩ => ⟨.rule (fault.lower k), file⟩
  | error => error

/-! ## Levels of rules in an element -/

namespace Element

mutual

/-- The number of levels of rules in an element; a nested rule counts also where only the last one
is kept, and what is inside a pre-instruction is no rule. -/
def ruleHeight : Element → Nat
  | ⟨name, _, _, children⟩ =>
      if name ∈ nestingRuleNames then ruleHeights children + 1
      else if name ∈ ruleNames then 1
      else 0

/-- The number of levels of rules in the highest of several elements. -/
def ruleHeights : List Element → Nat
  | [] => 0
  | e :: rest => max (ruleHeight e) (ruleHeights rest)

end

theorem ruleHeight_eq (e : Element) :
    e.ruleHeight =
      if e.name ∈ nestingRuleNames then ruleHeights e.children + 1
      else if e.name ∈ ruleNames then 1
      else 0 := by
  cases e
  rw [ruleHeight]

theorem ruleHeights_le_iff {children : List Element} {bound : Nat} :
    ruleHeights children ≤ bound ↔ ∀ child ∈ children, child.ruleHeight ≤ bound := by
  induction children with
  | nil => simp [ruleHeights]
  | cons child rest ih => rw [ruleHeights, Nat.max_le, ih, List.forall_mem_cons]

theorem mem_visitsAll_iff {depth : Int} {children : List Element} {visit : Visit} :
    visit ∈ visitsAll depth children ↔ ∃ child ∈ children, visit ∈ child.visits depth := by
  induction children with
  | nil => simp [visitsAll]
  | cons child rest ih => simp [ih]

/-- The rules that count in an element stand on as many levels as it has. -/
theorem ruleHeight_le_iff (depth : Int) {e : Element} {bound : Nat} :
    e.ruleHeight ≤ bound ↔
      ∀ visit ∈ e.visits depth, visit.element.name ∈ ruleNames → visit.depth < depth + bound := by
  induction e using Element.induct generalizing depth bound with
  | step e ih =>
    rw [ruleHeight_eq]
    by_cases hnest : e.name ∈ nestingRuleNames
    · have hrule := mem_ruleNames_of_mem_nesting hnest
      rw [if_pos hnest, visits_of_nesting depth hnest, List.forall_mem_cons]
      cases bound with
      | zero => simp [hrule]
      | succ bound =>
        have hbelow : depth + ↑(bound + 1) = depth + 1 + ↑bound := by omega
        have hself : depth < depth + 1 + ↑bound := by omega
        rw [Nat.add_le_add_iff_right, ruleHeights_le_iff, hbelow]
        constructor
        · intro hchildren
          refine ⟨fun _ => hself, ?_⟩
          intro visit hvisit
          obtain ⟨child, hchild, hmem⟩ := mem_visitsAll_iff.mp hvisit
          exact (ih child hchild (depth + 1)).mp (hchildren child hchild) visit hmem
        · rintro ⟨-, hvisits⟩ child hchild
          refine (ih child hchild (depth + 1)).mpr fun visit hmem => ?_
          exact hvisits visit (mem_visitsAll_iff.mpr ⟨child, hchild, hmem⟩)
    · rw [if_neg hnest, visits_of_not_nesting depth hnest, List.forall_mem_singleton]
      by_cases hrule : e.name ∈ ruleNames
      · rw [if_pos hrule]
        constructor
        · intro hbound _
          dsimp only
          omega
        · intro hself
          have := hself hrule
          dsimp only at this
          omega
      · rw [if_neg hrule]
        exact ⟨fun _ h => absurd h hrule, fun _ => Nat.zero_le bound⟩

/-- Everything that counts in an element stands on its levels of rules, or right below. -/
theorem depth_le_of_mem_visits {depth : Int} {e : Element} {visit : Visit}
    (h : visit ∈ e.visits depth) : visit.depth ≤ depth + e.ruleHeight := by
  induction e using Element.induct generalizing depth with
  | step e ih =>
    rw [visits_eq, List.mem_cons] at h
    rw [ruleHeight_eq]
    rcases h with rfl | h
    · dsimp only
      omega
    · by_cases hnest : e.name ∈ nestingRuleNames
      · rw [if_pos hnest] at h ⊢
        obtain ⟨child, hchild, hmem⟩ := mem_visitsAll_iff.mp h
        have hvisit := ih child hchild hmem
        have hheight := ruleHeights_le_iff.mp (Nat.le_refl (ruleHeights e.children)) child hchild
        omega
      · rw [if_neg hnest] at h
        cases h

end Element

theorem Visit.ruleFault?_eq_none_iff {maxDepth : Int} {visit : Visit} :
    visit.ruleFault? maxDepth = none ↔
      (visit.element.name ∈ ruleNames ∨ visit.element.name ∈ ruleFieldNames) ∧
        (visit.element.name ∈ ruleNames → visit.depth ≤ maxDepth) := by
  unfold ruleFault?
  split_ifs with hunknown hdeep
  · simp [hunknown]
  · simp [hdeep]
  · simp only [not_and, not_not, Int.not_lt] at hunknown hdeep
    simp only [true_iff]
    exact ⟨or_iff_not_imp_left.mpr hunknown, hdeep⟩

/-! ## Below the limit -/

namespace Element

mutual

/-- The element without what is below its rules at the given depth.  The text of a rule is left out
at every depth, because what is below counts among it. -/
def cutBelow (limit depth : Int) : Element → Element
  | ⟨name, innerText, attributes, children⟩ =>
      ⟨name, if name ∈ ruleNames then "" else innerText, attributes,
        if name ∈ ruleNames ∧ depth = limit then [] else cutAllBelow limit (depth + 1) children⟩

/-- Several elements at one depth, each without what is below its rules at the given depth. -/
def cutAllBelow (limit depth : Int) : List Element → List Element
  | [] => []
  | e :: rest => cutBelow limit depth e :: cutAllBelow limit depth rest

end

variable {limit depth : Int} {e : Element}

theorem cutAllBelow_eq (children : List Element) :
    cutAllBelow limit depth children = children.map (cutBelow limit depth) := by
  induction children with
  | nil => rfl
  | cons e rest ih => rw [cutAllBelow, ih, List.map_cons]

@[simp] theorem name_cutBelow (e : Element) : (e.cutBelow limit depth).name = e.name := by
  cases e
  rfl

@[simp] theorem attributes_cutBelow (e : Element) :
    (e.cutBelow limit depth).attributes = e.attributes := by
  cases e
  rfl

theorem innerText_cutBelow (h : e.name ∉ ruleNames) :
    (e.cutBelow limit depth).innerText = e.innerText := by
  cases e
  rw [cutBelow]
  exact if_neg h

theorem children_cutBelow (h : depth ≠ limit) :
    (e.cutBelow limit depth).children = e.children.map (cutBelow limit (depth + 1)) := by
  cases e
  rw [cutBelow, cutAllBelow_eq]
  exact if_neg fun hlimit => h hlimit.2

/-- Above the limit, the cut leaves the fields of an element as they are. -/
theorem agreeOn_cutBelow {names : List String} (hdepth : depth ≠ limit)
    (hnames : ∀ name ∈ names, name ∉ ruleNames) : e.AgreeOn names (e.cutBelow limit depth) where
  id := by rw [attribute?, attributes_cutBelow, attribute?]
  texts := by
    intro name hname
    have hsame : (fun child : Element => child.name == name) ∘ cutBelow limit (depth + 1) =
        fun child => child.name == name := by
      funext child
      simp
    rw [find?, children_cutBelow hdepth, List.find?_map, hsame, Option.map_map, find?]
    refine Option.map_congr fun first hfirst => ?_
    have hnamed : first.name = name := by simpa using List.find?_some hfirst
    exact innerText_cutBelow (hnamed ▸ hnames name hname)

end Element

/-! ## The laws -/

namespace Rule

variable {maxDepth depth : Int} {file : Option String} {e : Element} {rule : Rule}

/-- What the limit of depth means for the reading of an element at some depth. -/
structure DepthLaws (maxDepth : Int) (file : Option String) (depth : Int) (e : Element) : Prop where
  /-- No level of a rule that is read is below the limit. -/
  height_le : ∀ rule, ofElement maxDepth file depth e = .ok (some rule) →
    rule.height ≤ maxDepth - depth + 1
  /-- A rule that is refused inside the element stands right below the limit. -/
  reported : depth ≤ maxDepth → ∀ found limit named,
    ofElement maxDepth file depth e = .error ⟨.rule (.tooDeep found limit), named⟩ →
      found = maxDepth + 1 ∧ limit = maxDepth
  /-- A greater limit changes nothing, unless a rule stands too deep for the smaller one. -/
  raised : ∀ k, 0 ≤ k →
    (∀ found limit named,
      ofElement maxDepth file depth e ≠ .error ⟨.rule (.tooDeep found limit), named⟩) →
      ofElement (maxDepth + k) file depth e = ofElement maxDepth file depth e
  /-- Only the distance between the depth and the limit counts. -/
  lowered : ∀ k, ofElement (maxDepth + k) file (depth + k) e =
    (ofElement maxDepth file depth e).mapError (ImportError.lower k)
  /-- A rule without unknown names, as far down as the reading goes, is accepted exactly if no level
  of rules in it is below the limit. -/
  accepted : e.name ∈ ruleNames →
    (∀ visit ∈ e.visits depth, visit.depth ≤ maxDepth + 1 →
      visit.element.name ∈ ruleNames ∨ visit.element.name ∈ ruleFieldNames) →
    ((∃ rule, ofElement maxDepth file depth e = .ok (some rule)) ↔
      depth + e.ruleHeight - 1 ≤ maxDepth)
  /-- What is below a rule right below the limit makes no difference. -/
  hidden : depth ≤ maxDepth + 1 → ∀ other : Element,
    e.cutBelow (maxDepth + 1) depth = other.cutBelow (maxDepth + 1) depth →
      ofElement maxDepth file depth e = ofElement maxDepth file depth other

theorem fits_of_ofElement_eq_ok (h : ofElement maxDepth file depth e = .ok (some rule)) :
    rule.Fits maxDepth depth := by
  induction e using Element.induct generalizing depth rule with
  | step e ih =>
    obtain ⟨kind, -, hdepth, hread⟩ := ofElement_eq_some_iff.mp h
    obtain ⟨found, -, hnested⟩ := exists_compose_of_ofKind_eq_ok hread
    refine fits_iff.mpr ⟨hdepth, fun below hbelow => ?_⟩
    obtain ⟨child, hchild, hbelow⟩ := hnested below hbelow
    exact ih child hchild hbelow

/-- A fault of depth is that of the element itself, or of a rule right below the limit. -/
theorem tooDeep_of_ofElement_eq_error {found limit : Int} {named : Option String}
    (h : ofElement maxDepth file depth e = .error ⟨.rule (.tooDeep found limit), named⟩) :
    found = max depth (maxDepth + 1) ∧ limit = maxDepth := by
  induction e using Element.induct generalizing depth with
  | step e ih =>
    rcases RuleChild.name_cases e.name with ⟨kind, hkind⟩ | hfield | ⟨hrule, hfield⟩
    · by_cases hdepth : depth ≤ maxDepth
      · rw [ofElement_of_rule hkind hdepth, map_eq_error_iff] at h
        by_cases hpre : kind = .preInstruction
        · rw [hpre, ofKind_preInstruction] at h
          cases h
        · rw [ofKind_of_ne hpre, map_eq_error_iff] at h
          obtain ⟨child, hchild, hfault⟩ := exists_child_of_ofChildren_eq_error h
          obtain ⟨hfound, hlimit⟩ := ih child hchild hfault
          exact ⟨by omega, hlimit⟩
      · rw [ofElement_of_tooDeep hkind (Int.not_le.mp hdepth)] at h
        cases h
        exact ⟨by omega, rfl⟩
    · rw [ofElement_of_field hfield] at h
      cases h
    · rw [ofElement_of_unknown hrule hfield] at h
      cases h

/-! ### A greater limit -/

variable {α β : Type}

/-- The second outcome is the first one, unless that is the refusal of a rule as too deep. -/
def Persists (first second : Except ImportError α) : Prop :=
  (∀ found limit named, first ≠ .error ⟨.rule (.tooDeep found limit), named⟩) → second = first

theorem Persists.bind {x y : Except ImportError α} {f g : α → Except ImportError β}
    (h : Persists x y) (hnext : ∀ a, Persists (f a) (g a)) : Persists (x >>= f) (y >>= g) := by
  intro hfine
  cases x with
  | error error =>
    have hother : ∀ found limit named, error ≠ ⟨.rule (.tooDeep found limit), named⟩ :=
      fun found limit named hdeep => hfine found limit named (congrArg Except.error hdeep)
    rw [h fun found limit named hdeep => hother found limit named (Except.error.inj hdeep)]
    rfl
  | ok a =>
    obtain rfl : y = .ok a := h (by simp)
    exact hnext a hfine

theorem Persists.map {x y : Except ImportError α} (h : Persists x y) (f : α → β) :
    Persists (x.map f) (y.map f) :=
  h.bind fun _ _ => rfl

theorem persists_ofChildren {greater : Int} {children : List Element}
    (h : ∀ child ∈ children, Persists (ofElement maxDepth file depth child)
      (ofElement greater file depth child)) :
    Persists (ofChildren maxDepth file depth children)
      (ofChildren greater file depth children) := by
  induction children with
  | nil => exact fun _ => rfl
  | cons child rest ih =>
    obtain ⟨hfirst, hrest⟩ := List.forall_mem_cons.mp h
    rw [ofChildren_cons, ofChildren_cons]
    exact hfirst.bind fun first => (ih hrest).bind fun others _ => rfl

theorem persists_ofElement {greater : Int} (hle : maxDepth ≤ greater) (depth : Int) (e : Element) :
    Persists (ofElement maxDepth file depth e) (ofElement greater file depth e) := by
  induction e using Element.induct generalizing depth with
  | step e ih =>
    rcases RuleChild.name_cases e.name with ⟨kind, hkind⟩ | hfield | ⟨hrule, hfield⟩
    · by_cases hdepth : depth ≤ maxDepth
      · rw [ofElement_of_rule hkind hdepth, ofElement_of_rule hkind (Int.le_trans hdepth hle)]
        refine Persists.map ?_ some
        by_cases hpre : kind = .preInstruction
        · rw [hpre, ofKind_preInstruction, ofKind_preInstruction]
          exact fun _ => rfl
        · rw [ofKind_of_ne hpre, ofKind_of_ne hpre]
          exact (persists_ofChildren fun child hchild => ih child hchild (depth + 1)).map _
      · intro hfine
        exact absurd (ofElement_of_tooDeep hkind (Int.not_le.mp hdepth)) (hfine depth maxDepth file)
    · rw [ofElement_of_field hfield, ofElement_of_field hfield]
      exact fun _ => rfl
    · rw [ofElement_of_unknown hrule hfield, ofElement_of_unknown hrule hfield]
      exact fun _ => rfl

/-! ### A deeper start -/

theorem ofElement_lower (maxDepth : Int) (file : Option String) (depth k : Int) (e : Element) :
    ofElement (maxDepth + k) file (depth + k) e =
      (ofElement maxDepth file depth e).mapError (ImportError.lower k) := by
  refine Alike.eq_mapError ?_
  induction e using Element.induct generalizing depth with
  | step e ih =>
    refine ofElement_alike_of_level rfl rfl (by omega) rfl ?_ ?_
    · intro _ kind found found' hsame
      rw [List.forall₂_eq_eq_eq] at hsame
      rw [hsame]
    · intro _
      refine List.forall₂_same.mpr fun child hchild => ?_
      rw [Int.add_right_comm depth k 1]
      exact ih child hchild (depth + 1)

/-! ### Acceptance -/

theorem exists_ofElement_eq_some_iff (hrule : e.name ∈ ruleNames) :
    (∃ rule, ofElement maxDepth file depth e = .ok (some rule)) ↔
      ∀ visit ∈ e.visits depth, visit.ruleFault? maxDepth = none := by
  obtain ⟨kind, hkind⟩ := (mem_ruleNames_iff e.name).mp hrule
  rw [← List.findSome?_eq_none_iff, ← Option.map_eq_none_iff (f := errorIn file),
    ← refusal_ofElement, refusal_eq_none_iff]
  constructor
  · rintro ⟨rule, hread⟩
    exact ⟨some rule, hread⟩
  · rintro ⟨read, hread⟩
    cases read with
    | none => exact absurd hread (ofElement_ne_ok_none hkind)
    | some rule => exact ⟨rule, hread⟩

theorem accepted_iff (hrule : e.name ∈ ruleNames)
    (hknown : ∀ visit ∈ e.visits depth, visit.depth ≤ maxDepth + 1 →
      visit.element.name ∈ ruleNames ∨ visit.element.name ∈ ruleFieldNames) :
    (∃ rule, ofElement maxDepth file depth e = .ok (some rule)) ↔
      depth + e.ruleHeight - 1 ≤ maxDepth := by
  rw [exists_ofElement_eq_some_iff hrule]
  simp only [Visit.ruleFault?_eq_none_iff]
  constructor
  · intro hvisits
    have hself : depth ≤ maxDepth :=
      (hvisits ⟨depth, e⟩ (by rw [Element.visits_eq]; exact List.mem_cons_self)).2 hrule
    have hheight : e.ruleHeight ≤ (maxDepth + 1 - depth).toNat := by
      refine (Element.ruleHeight_le_iff depth).mpr fun visit hvisit hname => ?_
      have := (hvisits visit hvisit).2 hname
      omega
    omega
  · intro hheight visit hvisit
    have hreach := Element.depth_le_of_mem_visits hvisit
    refine ⟨hknown visit hvisit (by omega), fun hname => ?_⟩
    have := (Element.ruleHeight_le_iff depth).mp (Nat.le_refl e.ruleHeight) visit hvisit hname
    omega

/-! ### What is not looked at -/

/-- The reading of an element does not notice the cut. -/
theorem ofElement_cutBelow (maxDepth : Int) (file : Option String) (depth : Int) (e : Element) :
    ofElement maxDepth file depth (e.cutBelow (maxDepth + 1) depth) =
      ofElement maxDepth file depth e := by
  have halike : Alike (fun error error' => error' = id error) (Option.Rel Eq)
      (ofElement maxDepth file depth e)
      (ofElement maxDepth file depth (e.cutBelow (maxDepth + 1) depth)) := by
    induction e using Element.induct generalizing depth with
    | step e ih =>
      refine ofElement_alike_of_level e.name_cutBelow rfl Iff.rfl rfl ?_ ?_
      · intro hdepth kind found found' hsame
        have hagree : e.AgreeOn kind.fieldNames (e.cutBelow (maxDepth + 1) depth) :=
          Element.agreeOn_cutBelow (by omega) fun name hname =>
            kind.not_mem_ruleNames_of_mem_fieldNames hname
        rw [List.forall₂_eq_eq_eq] at hsame
        rw [compose_congr hagree, hsame]
      · intro hdepth
        rw [Element.children_cutBelow (by omega), List.forall₂_map_right_iff]
        exact List.forall₂_same.mpr fun child hchild => ih child hchild (depth + 1)
  rw [halike.eq_mapError]
  cases ofElement maxDepth file depth e <;> rfl

/-- The limit of depth obeys its laws, whatever the element and wherever the limit is. -/
theorem depthLaws (maxDepth : Int) (file : Option String) (depth : Int) (e : Element) :
    DepthLaws maxDepth file depth e where
  height_le := by
    intro rule hread
    have hfits := fits_of_ofElement_eq_ok hread
    unfold Fits at hfits
    omega
  reported := by
    intro hdepth found limit named hfault
    obtain ⟨hfound, hlimit⟩ := tooDeep_of_ofElement_eq_error hfault
    exact ⟨by omega, hlimit⟩
  raised := by
    intro k hk hfine
    exact persists_ofElement (by omega) depth e hfine
  lowered := fun k => ofElement_lower maxDepth file depth k e
  accepted := accepted_iff
  hidden := by
    intro _ other hsame
    rw [← ofElement_cutBelow maxDepth file depth e, hsame, ofElement_cutBelow]

/-- An option that drops a list with two levels below it for a tuple with none. -/
def stairs : Element :=
  ⟨"optionRule", "", [],
    [⟨"listRule", "", [], [⟨"preInstruction", "", [], [⟨"listRule", "", [], []⟩]⟩]⟩,
      ⟨"displayName", "Stairs", [], []⟩, ⟨"tupleRule", "", [], []⟩]⟩

/-- The dropped levels count for acceptance, though not for the height of the rule, and what is in
the pre-instruction does not count. -/
theorem depthLaws_stairs :
    (∃ rule, ofElement 3 (some "f") 1 stairs = .ok (some rule) ∧ (rule.height : Int) ≤ 3 - 1 + 1) ∧
      ofElement 2 (some "f") 1 stairs = .error ⟨.rule (.tooDeep 3 2), some "f"⟩ ∧
      (3 : Int) = 2 + 1 ∧
      ofElement (3 + 4) (some "f") 1 stairs = ofElement 3 (some "f") 1 stairs ∧
      ofElement (2 + 4) (some "f") (1 + 4) stairs =
        .error ⟨.rule (.tooDeep (3 + 4) (2 + 4)), some "f"⟩ ∧
      ofElement 2 (some "f") 1 (stairs.cutBelow (2 + 1) 1) = ofElement 2 (some "f") 1 stairs := by
  have hrefused : ofElement 2 (some "f") 1 stairs = .error ⟨.rule (.tooDeep 3 2), some "f"⟩ := rfl
  have hknown : ∀ visit ∈ stairs.visits 1, visit.depth ≤ 3 + 1 →
      visit.element.name ∈ ruleNames ∨ visit.element.name ∈ ruleFieldNames := by decide
  obtain ⟨rule, hread⟩ :=
    ((depthLaws 3 (some "f") 1 stairs).accepted (by decide) hknown).mpr (by decide)
  refine ⟨⟨rule, hread, (depthLaws 3 (some "f") 1 stairs).height_le rule hread⟩, hrefused, ?_,
    ?_, ?_, ?_⟩
  · exact ((depthLaws 2 (some "f") 1 stairs).reported (by decide) 3 2 _ hrefused).1
  · refine (depthLaws 3 (some "f") 1 stairs).raised 4 (by decide) fun found limit named hfault => ?_
    rw [hread] at hfault
    cases hfault
  · rw [(depthLaws 2 (some "f") 1 stairs).lowered 4, hrefused]
    rfl
  · have hhidden := (depthLaws 2 (some "f") 1 stairs).hidden
    exact (hhidden (by decide) (stairs.cutBelow (2 + 1) 1) rfl).symm

end Rule

end CutsceneCatalog
