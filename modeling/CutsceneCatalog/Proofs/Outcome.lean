import Mathlib.Data.List.Basic
import Mathlib.Data.List.Forall2

/-!
# Steps that may fail

When a step in front of another, a loop over a list, or a choice from a list succeeds, and what it
gives then; when a loop fails, and for which member.  Everything that fails here does so with an
error, and for the first reason that comes up.

Two such computations are compared by `Alike`: both succeed, or both fail.  Steps that are alike
make runs that are alike (`Alike.bind`, `Alike.foldlM`).
-/

namespace CutsceneCatalog

variable {ε α β : Type}

/-- Two steps succeed exactly if the first does and the second does on its answer. -/
theorem bind_eq_ok_iff {x : Except ε α} {f : α → Except ε β} {b : β} :
    (x >>= f) = .ok b ↔ ∃ a, x = .ok a ∧ f a = .ok b := by
  cases x <;> simp [bind, Except.bind]

/-- Two steps fail exactly if the first does, or the second does on its answer. -/
theorem bind_eq_error_iff {x : Except ε α} {f : α → Except ε β} {e : ε} :
    (x >>= f) = .error e ↔ x = .error e ∨ ∃ a, x = .ok a ∧ f a = .error e := by
  cases x <;> simp [bind, Except.bind]

/-- A step whose answer is turned into another one succeeds exactly if it does by itself. -/
theorem map_eq_ok_iff {x : Except ε α} {f : α → β} {b : β} :
    x.map f = .ok b ↔ ∃ a, x = .ok a ∧ f a = b := by
  cases x <;> simp [Except.map]

theorem map_eq_error_iff {x : Except ε α} {f : α → β} {e : ε} :
    x.map f = .error e ↔ x = .error e := by
  cases x <;> simp [Except.map]

/-- Another error for a failure leaves successes as they are. -/
theorem mapError_eq_ok_iff {δ : Type} {x : Except ε α} {f : ε → δ} {a : α} :
    x.mapError f = .ok a ↔ x = .ok a := by
  cases x with
  | ok b => exact ⟨fun h => congrArg _ (Except.ok.inj h), fun h => congrArg _ (Except.ok.inj h)⟩
  | error e => exact iff_of_false nofun nofun

@[simp] theorem pure_eq_ok_iff {a b : α} : (pure a : Except ε α) = .ok b ↔ a = b := by
  simp [pure, Except.pure]

/-- Each member on the right of a pairing has a partner on the left. -/
theorem exists_partner_of_forall₂ {r : α → β → Prop} {as : List α} {bs : List β}
    (h : List.Forall₂ r as bs) : ∀ b ∈ bs, ∃ a ∈ as, r a b := by
  induction h with
  | nil =>
    intro b hb
    cases hb
  | @cons a b rest others hab _ ih =>
    rw [List.forall_mem_cons]
    refine ⟨⟨a, List.mem_cons_self, hab⟩, ?_⟩
    intro other hother
    obtain ⟨partner, hpartner, hr⟩ := ih other hother
    exact ⟨partner, List.mem_cons_of_mem _ hpartner, hr⟩

/-- A pairing may use what is known of the members on its left. -/
theorem forall₂_imp_of_mem {r s : α → β → Prop} {as : List α} {bs : List β}
    (h : List.Forall₂ r as bs) (himp : ∀ a ∈ as, ∀ b, r a b → s a b) : List.Forall₂ s as bs := by
  have hboth : List.Forall₂ (fun a b => a ∈ as ∧ r a b) as bs :=
    (List.forall₂_and_left as bs).mpr ⟨fun _ ha => ha, h⟩
  exact hboth.imp fun a b ⟨ha, hab⟩ => himp a ha b hab

theorem exists_forall₂_of_forall {r : α → β → Prop} {as : List α} (h : ∀ a ∈ as, ∃ b, r a b) :
    ∃ bs, List.Forall₂ r as bs := by
  induction as with
  | nil => exact ⟨[], .nil⟩
  | cons a rest ih =>
    obtain ⟨⟨b, hb⟩, hrest⟩ := List.forall_mem_cons.mp h
    obtain ⟨others, hothers⟩ := ih hrest
    exact ⟨b :: others, .cons hb hothers⟩

/-- A loop over a list succeeds exactly if it does on every member, and answers in order. -/
theorem mapM_eq_ok_iff {f : α → Except ε β} {as : List α} {bs : List β} :
    as.mapM f = .ok bs ↔ List.Forall₂ (fun a b => f a = .ok b) as bs := by
  induction as generalizing bs with
  | nil => rw [List.mapM_nil, pure_eq_ok_iff, List.forall₂_nil_left_iff, eq_comm]
  | cons a rest ih =>
    simp only [List.mapM_cons, bind_eq_ok_iff, pure_eq_ok_iff, ih, List.forall₂_cons_left_iff]
    constructor
    · rintro ⟨b, hb, others, hothers, rfl⟩
      exact ⟨b, others, hb, hothers, rfl⟩
    · rintro ⟨b, others, hb, hothers, rfl⟩
      exact ⟨b, hb, others, hothers, rfl⟩

/-- A loop over a list fails with the error of the first member that it fails on. -/
theorem mapM_eq_error_of_first {f : α → Except ε β} {before after : List α} {a : α} {e : ε}
    (hbefore : ∀ earlier ∈ before, ∃ b, f earlier = .ok b) (ha : f a = .error e) :
    (before ++ a :: after).mapM f = .error e := by
  induction before with
  | nil =>
    rw [List.nil_append, List.mapM_cons, ha]
    rfl
  | cons first rest ih =>
    obtain ⟨⟨b, hb⟩, hrest⟩ := List.forall_mem_cons.mp hbefore
    rw [List.cons_append, List.mapM_cons, hb, ih hrest]
    rfl

/-- A loop over a list fails only with an error of a member. -/
theorem exists_of_mapM_eq_error {f : α → Except ε β} {as : List α} {e : ε}
    (h : as.mapM f = .error e) : ∃ a ∈ as, f a = .error e := by
  induction as with
  | nil => cases h
  | cons a rest ih =>
    rw [List.mapM_cons, bind_eq_error_iff] at h
    rcases h with hfirst | ⟨b, -, hrest⟩
    · exact ⟨a, List.mem_cons_self, hfirst⟩
    · rw [bind_eq_error_iff] at hrest
      rcases hrest with hrest | ⟨others, -, hpure⟩
      · obtain ⟨other, hmem, hother⟩ := ih hrest
        exact ⟨other, List.mem_cons_of_mem _ hmem, hother⟩
      · cases hpure

/-- A fold over a list fails only with an error of one of its steps. -/
theorem exists_of_foldlM_eq_error {f : β → α → Except ε β} {as : List α} {b : β} {e : ε}
    (h : as.foldlM f b = .error e) : ∃ a ∈ as, ∃ sofar, f sofar a = .error e := by
  induction as generalizing b with
  | nil => cases h
  | cons a rest ih =>
    rw [List.foldlM_cons, bind_eq_error_iff] at h
    rcases h with hfirst | ⟨next, -, hrest⟩
    · exact ⟨a, List.mem_cons_self, b, hfirst⟩
    · obtain ⟨other, hmem, sofar, hother⟩ := ih hrest
      exact ⟨other, List.mem_cons_of_mem _ hmem, sofar, hother⟩

/-! ## Two computations -/

theorem exists_error_iff {ε' : Type} {x : Except ε α} {y : Except ε' α}
    (h : ∀ a, x = .ok a ↔ y = .ok a) : (∃ e, x = .error e) ↔ ∃ e, y = .error e := by
  cases x <;> cases y <;> simp_all

/-- Two outcomes that are answers in one relation, or errors in another. -/
inductive Alike {δ γ : Type} (errors : ε → δ → Prop) (answers : α → γ → Prop) :
    Except ε α → Except δ γ → Prop
  | ok {a : α} {c : γ} : answers a c → Alike errors answers (.ok a) (.ok c)
  | error {e : ε} {d : δ} : errors e d → Alike errors answers (.error e) (.error d)

namespace Alike

variable {δ γ α' γ' : Type} {errors : ε → δ → Prop} {answers : α → γ → Prop}
  {answers' : α' → γ' → Prop}

theorem bind {x : Except ε α} {y : Except δ γ} (h : Alike errors answers x y)
    {f : α → Except ε α'} {g : γ → Except δ γ'}
    (hnext : ∀ a c, answers a c → Alike errors answers' (f a) (g c)) :
    Alike errors answers' (x >>= f) (y >>= g) := by
  cases h with
  | ok h => exact hnext _ _ h
  | error h => exact .error h

theorem map {x : Except ε α} {y : Except δ γ} (h : Alike errors answers x y) {f : α → α'}
    {g : γ → γ'} (hnext : ∀ a c, answers a c → answers' (f a) (g c)) :
    Alike errors answers' (x.map f) (y.map g) := by
  cases h with
  | ok h => exact .ok (hnext _ _ h)
  | error h => exact .error h

/-- Loops over related lists are alike if a step in each keeps what they have so far related. -/
theorem foldlM {states : α' → γ' → Prop} {f : α' → α → Except ε α'} {g : γ' → γ → Except δ γ'}
    (hstep : ∀ s t a c, states s t → answers a c → Alike errors states (f s a) (g t c))
    {as : List α} {cs : List γ} (h : List.Forall₂ answers as cs) {s : α'} {t : γ'}
    (hstart : states s t) : Alike errors states (as.foldlM f s) (cs.foldlM g t) := by
  induction h generalizing s t with
  | nil => exact .ok hstart
  | @cons a c as cs hfirst _ ih =>
    rw [List.foldlM_cons, List.foldlM_cons]
    exact (hstep s t a c hstart hfirst).bind fun s t hst => ih hst

end Alike

/-! ## Choices from a list -/

variable [DecidableEq ε]

theorem filterAuxM_eq_ok_iff (p : α → Except ε Bool) (as passed kept : List α) :
    as.filterAuxM p passed = .ok kept ↔
      (∀ a ∈ as, ∃ b, p a = .ok b) ∧
        kept = (as.filter fun a => p a = .ok true).reverse ++ passed := by
  induction as generalizing passed with
  | nil =>
    rw [List.filterAuxM, pure_eq_ok_iff, eq_comm]
    simp
  | cons a rest ih =>
    rw [List.filterAuxM]
    cases hfirst : p a with
    | error e => simp [bind, Except.bind, hfirst]
    | ok b =>
      change List.filterAuxM p rest (cond b (a :: passed) passed) = .ok kept ↔ _
      rw [ih]
      cases b <;> simp [hfirst]

/-- A choice from a list succeeds exactly if every member can be judged, and keeps those that
pass. -/
theorem filterM_eq_ok_iff {p : α → Except ε Bool} {as kept : List α} :
    as.filterM p = .ok kept ↔
      (∀ a ∈ as, ∃ b, p a = .ok b) ∧ kept = as.filter fun a => p a = .ok true := by
  simp only [List.filterM, bind_eq_ok_iff, pure_eq_ok_iff, filterAuxM_eq_ok_iff, List.append_nil]
  constructor
  · rintro ⟨reversed, ⟨hjudged, rfl⟩, rfl⟩
    exact ⟨hjudged, List.reverse_reverse _⟩
  · rintro ⟨hjudged, rfl⟩
    exact ⟨_, ⟨hjudged, rfl⟩, List.reverse_reverse _⟩

end CutsceneCatalog
