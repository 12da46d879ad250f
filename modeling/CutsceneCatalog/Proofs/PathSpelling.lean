import CutsceneCatalog.Libraries.Standard
import CutsceneCatalog.Proofs.AbsoluteLocation

/-!
# Spellings of paths

One place has many paths: components that lead nowhere can be put in between the others, a doubled
slash, a point, or a name with the way back.  `Location.Inserted` is one such insertion in the text
of a path, and `Respelled` one in a plain path or behind the marker of a virtual one.

An insertion changes neither the anchor of a text nor the names that are left of its parts
(`Location.Inserted.under`).  It can still change where a path leads, in one way: a plain path that
starts with `res:/` or `user:/` becomes virtual when its first slash is doubled
(`MakesVirtual`).  Without such a step, any number of insertions leave a path with its location
(`SpelledAs`, `Settings.locate_lexically`).
-/

namespace CutsceneCatalog

/-! ## Insertions in a text -/

namespace Location

/-- A place for more components in a path: with a component before it and something behind it, or
right in front of a component, or right behind one.  An empty component doubles a slash; it has to
have a component before it, or the slash would be one of those in front of the path. -/
inductive Place (before added after : List (List Char)) : Prop
  | inner {component : List Char} (h : component ∈ before) (hne : component ≠ [])
      (hafter : after ≠ [])
  | front {component : List Char} {more : List (List Char)} (h : after = component :: more)
      (hne : component ≠ []) (hadded : added ≠ [[]])
  | back {component : List Char} {more : List (List Char)} (h : before = more ++ [component])
      (hne : component ≠ []) (hadded : added ≠ [[]])

/-- The second text has the components of the first and idle ones among them. -/
inductive Inserted : List Char → List Char → Prop
  | intro {before added after : List (List Char)} (hslash : ∀ c ∈ before ++ after, '/' ∉ c)
      (hidle : Idle added) (hplace : Place before added after) :
      Inserted (Text.join '/' (before ++ after)) (Text.join '/' (before ++ added ++ after))

theorem Idle.no_slash {added : List (List Char)} (h : Idle added) : ∀ c ∈ added, '/' ∉ c := by
  cases h with
  | empty | point => decide
  | back hname => simp [hname.no_slash]

theorem Idle.no_slash_append {before added after : List (List Char)} (h : Idle added)
    (hslash : ∀ c ∈ before ++ after, '/' ∉ c) : ∀ c ∈ before ++ added ++ after, '/' ∉ c := by
  intro c hc
  rw [List.mem_append, List.mem_append, or_right_comm, ← List.mem_append] at hc
  exact hc.elim (hslash c) (h.no_slash c)

theorem Idle.ne_nil {added : List (List Char)} (h : Idle added) : added ≠ [] := by
  cases h <;> exact List.cons_ne_nil _ _

/-- Idle components other than the empty one begin with a component that is not empty. -/
theorem Idle.exists_cons {added : List (List Char)} (h : Idle added) (hadded : added ≠ [[]]) :
    ∃ component more, added = component :: more ∧ component ≠ [] := by
  cases h with
  | empty => exact absurd rfl hadded
  | point => exact ⟨['.'], [], rfl, List.cons_ne_nil _ _⟩
  | back hname => exact ⟨_, _, rfl, hname.ne_nil⟩

/-- The anchor is decided by the empty components in front. -/
theorem ofChars_join (n : Nat) {component : List Char} (h : component ≠ [])
    (hslash : '/' ∉ component) (more : List (List Char)) :
    Anchor.ofChars (Text.join '/' (List.replicate n [] ++ component :: more)) =
      Anchor.ofSlashes n := by
  have hjoin : Text.join '/' (List.replicate n [] ++ component :: more) =
      List.replicate n '/' ++ Text.join '/' (component :: more) := by
    induction n with
    | zero => rfl
    | succ n ih =>
      rw [List.replicate_succ, List.cons_append, Text.join_cons (by simp), ih]
      rfl
  rw [hjoin]
  exact Anchor.ofChars_slashes n (head?_join h hslash more)

theorem exists_first_component (components : List (List Char)) :
    (∃ n, components = List.replicate n []) ∨
      ∃ n component more, components = List.replicate n [] ++ component :: more ∧
        component ≠ [] := by
  induction components with
  | nil => exact .inl ⟨0, rfl⟩
  | cons c others ih =>
    by_cases hc : c = []
    · subst hc
      rcases ih with ⟨n, rfl⟩ | ⟨n, component, more, rfl, hne⟩
      · exact .inl ⟨n + 1, rfl⟩
      · exact .inr ⟨n + 1, component, more, rfl, hne⟩
    · exact .inr ⟨0, c, others, rfl, hc⟩

/-- The slashes in front stay as they are. -/
theorem Place.ofChars_eq {before added after : List (List Char)}
    (h : Place before added after) (hidle : Idle added)
    (hslash : ∀ c ∈ before ++ after, '/' ∉ c) :
    Anchor.ofChars (Text.join '/' (before ++ added ++ after)) =
      Anchor.ofChars (Text.join '/' (before ++ after)) := by
  rcases exists_first_component before with ⟨n, rfl⟩ | ⟨n, component, more, rfl, hne⟩
  · cases h with
    | inner h hne => exact absurd (List.eq_of_mem_replicate h) hne
    | back h hne =>
      exact absurd (List.eq_of_mem_replicate (h ▸ List.mem_append_right _ List.mem_cons_self)) hne
    | front h hne hadded =>
      subst h
      obtain ⟨first, others, rfl, hfirst⟩ := hidle.exists_cons hadded
      rw [List.append_assoc, List.cons_append,
        ofChars_join n hfirst (hidle.no_slash _ List.mem_cons_self),
        ofChars_join n hne (hslash _ (by simp))]
  · have hcomponent : '/' ∉ component := hslash _ (by simp)
    rw [List.append_assoc, List.append_assoc, List.append_assoc, List.cons_append,
      List.cons_append, ofChars_join n hne hcomponent, ofChars_join n hne hcomponent]

/-- What an insertion leaves alone, and what it adds. -/
theorem Inserted.exists_parts {cs cs' : List Char} (h : Inserted cs cs') :
    Anchor.ofChars cs' = Anchor.ofChars cs ∧ ∃ xs added ys, Idle added ∧
      partsOf cs = xs ++ ys ∧ partsOf cs' = xs ++ partsIn added ++ ys := by
  cases h with
  | @intro before added after hslash hidle hplace =>
    refine ⟨hplace.ofChars_eq hidle hslash, partsIn before, added, partsIn after, hidle, ?_, ?_⟩
    · rw [partsOf_join hslash, partsIn_append]
    · rw [partsOf_join (hidle.no_slash_append hslash), partsIn_append, partsIn_append]

/-- Under any folder, an insertion leaves the anchor and the names as they are. -/
theorem Inserted.under {path path' : String} (h : Inserted path.toList path'.toList)
    (folder : Location) :
    (folder.under (ofString path')).anchor = (folder.under (ofString path)).anchor ∧
      collapse (folder.under (ofString path')).parts =
        collapse (folder.under (ofString path)).parts := by
  obtain ⟨hanchor, xs, added, ys, hidle, hparts, hparts'⟩ := h.exists_parts
  have hpath : ofString path = ⟨.ofChars path.toList, xs ++ ys⟩ := by rw [ofString, hparts]
  have hpath' : ofString path' = ⟨.ofChars path.toList, xs ++ partsIn added ++ ys⟩ := by
    rw [ofString, hanchor, hparts']
  rw [hpath, hpath', under_mk, under_mk]
  by_cases hrelative : Anchor.ofChars path.toList = .relative
  · rw [if_pos hrelative, if_pos hrelative]
    have hcollapse := collapse_idle hidle (folder.parts ++ xs) ys
    rw [List.append_assoc, List.append_assoc, List.append_assoc folder.parts xs,
      ← List.append_assoc xs] at hcollapse
    exact ⟨rfl, hcollapse⟩
  · rw [if_neg hrelative, if_neg hrelative]
    exact ⟨rfl, collapse_idle hidle xs ys⟩

end Location

/-! ## Respelled paths -/

/-- What the marker of a root has before its slashes. -/
def VirtualRoot.scheme : VirtualRoot → String
  | .project => "res:"
  | .user => "user:"

/-- The second path is the first with idle components put in: somewhere in a plain path, or behind
the marker of a virtual one. -/
inductive Respelled : String → String → Prop
  | plain {path path' : String} (h : IsPlain path)
      (hinserted : Location.Inserted path.toList path'.toList) : Respelled path path'
  | virtual (root : VirtualRoot) {rest rest' : String}
      (hinserted : Location.Inserted rest.toList rest'.toList) :
      Respelled (root.marker ++ rest) (root.marker ++ rest')

/-- The second path is virtual because the one slash behind a scheme is doubled in the first. -/
def MakesVirtual (path path' : String) : Prop :=
  IsPlain path ∧ ∃ (root : VirtualRoot) (rest : String),
    path = root.scheme ++ "/" ++ rest ∧ path' = root.scheme ++ "//" ++ rest

/-- The second path comes from the first by insertions, none of which makes a plain path virtual. -/
def SpelledAs : String → String → Prop :=
  Relation.ReflTransGen fun path path' => Respelled path path' ∧ ¬MakesVirtual path path'

theorem toList_marker (root : VirtualRoot) :
    root.marker.toList = root.scheme.toList ++ ['/', '/'] := by
  cases root <;> rfl

theorem isName_scheme (root : VirtualRoot) : Location.IsName root.scheme.toList := by
  cases root <;> exact ⟨by decide, by decide, by decide, by decide⟩

theorem pieces_marker (root : VirtualRoot) (rest : String) :
    Text.pieces '/' (root.marker ++ rest).toList =
      root.scheme.toList :: [] :: Text.pieces '/' rest.toList := by
  have hchars : (root.marker ++ rest).toList =
      root.scheme.toList ++ '/' :: ([] ++ '/' :: rest.toList) := by
    rw [String.toList_append, toList_marker, List.append_assoc]
    rfl
  rw [hchars, Text.pieces_append_separator, Text.pieces_append_separator,
    Text.pieces_of_not_mem (isName_scheme root).no_slash]
  rfl

/-- Components that begin like a marker are those of a virtual path. -/
theorem eq_marker_of_components {path : String} {root : VirtualRoot} {more : List (List Char)}
    (h : path.toList = Text.join '/' (root.scheme.toList :: [] :: more)) (hmore : more ≠ []) :
    path = root.marker ++ String.ofList (Text.join '/' more) := by
  apply String.toList_injective
  rw [h, Text.join_cons (List.cons_ne_nil _ _), Text.join_cons hmore, String.toList_append,
    toList_marker, String.toList_ofList, List.append_assoc]
  rfl

/-- When idle components are taken from the components of a virtual path, either they are the empty
one of the marker, or the marker stays. -/
theorem Location.Place.components_of_marker {before added after rest : List (List Char)}
    {scheme : List Char} (h : Place before added after) (hidle : Idle added)
    (hscheme : IsName scheme) (hall : before ++ added ++ after = scheme :: [] :: rest) :
    before ++ after = scheme :: rest ∨
      ∃ more, more ≠ [] ∧ before ++ after = scheme :: [] :: more := by
  match before, hall with
  | [], hall =>
    cases hidle with
    | empty => exact absurd (List.cons.inj hall).1.symm hscheme.ne_nil
    | point => exact absurd (List.cons.inj hall).1.symm hscheme.ne_point
    | back => simp at hall
  | [first], hall =>
    obtain ⟨rfl, hmore⟩ := List.cons.inj hall
    cases hidle with
    | empty => exact .inl (congrArg (first :: ·) (List.cons.inj hmore).2)
    | point => simp at hmore
    | back hname => exact absurd (List.cons.inj hmore).1 hname.ne_nil
  | first :: second :: others, hall =>
    obtain ⟨rfl, hmore⟩ := List.cons.inj hall
    obtain ⟨rfl, -⟩ := List.cons.inj hmore
    refine .inr ⟨others ++ after, ?_, rfl⟩
    intro hnone
    obtain ⟨rfl, rfl⟩ := List.append_eq_nil_iff.mp hnone
    cases h with
    | inner _ _ hafter => exact hafter rfl
    | front h => cases h
    | back h hne =>
      have hlast := congrArg List.getLast? h
      rw [List.getLast?_concat] at hlast
      exact hne (Option.some.inj hlast).symm

/-- Idle components can make a plain path virtual only as a second slash behind a scheme. -/
theorem Location.Inserted.isPlain_or_makesVirtual {path path' : String}
    (h : Inserted path.toList path'.toList) (hplain : IsPlain path) :
    IsPlain path' ∨ MakesVirtual path path' := by
  obtain hplain' | ⟨root, rest, rfl⟩ := isPlain_or_marker path'
  · exact .inl hplain'
  have hpieces := pieces_marker root rest
  generalize hchars : path.toList = cs at h
  generalize (root.marker ++ rest).toList = cs' at h hpieces
  cases h with
  | @intro before added after hslash hidle hplace =>
    have hall : before ++ added ++ after =
        root.scheme.toList :: [] :: Text.pieces '/' rest.toList := by
      rw [← hpieces, Text.pieces_join _ (hidle.no_slash_append hslash)]
      simp [hidle.ne_nil]
    refine .inr ⟨hplain, root, rest, ?_, ?_⟩
    · rcases hplace.components_of_marker hidle (isName_scheme root) hall with
        hscheme | ⟨more, hmore, hmarker⟩
      · apply String.toList_injective
        rw [hchars, hscheme, Text.join_cons (Text.pieces_ne_nil _ _), Text.join_pieces]
        simp [String.toList_append]
      · rw [hmarker] at hchars
        exact absurd (eq_marker_of_components hchars hmore) (hplain root _)
    · cases root <;> rfl

namespace Settings

variable {settings : Settings} {host : Host}

/-- A respelled path has the location of the path, unless the path is made virtual. -/
theorem locate_of_respelled {path path' : String} (h : Respelled path path')
    (hkept : ¬MakesVirtual path path') :
    settings.locate host path' = settings.locate host path := by
  cases h with
  | plain hplain hinserted =>
    have hplain' := (hinserted.isPlain_or_makesVirtual hplain).resolve_right hkept
    obtain ⟨hanchor, hnames⟩ := hinserted.under host.here
    rw [locate_plain hplain, locate_plain hplain']
    exact (Location.mk.injEq ..).mpr ⟨hanchor, hnames⟩
  | @virtual root rest rest' hinserted =>
    obtain ⟨-, hnames⟩ := hinserted.under (host.here.under (settings.folder root))
    rw [Location.under_assoc, Location.under_assoc] at hnames
    rw [locate_marker, locate_marker]
    exact (Location.mk.injEq ..).mpr ⟨rfl, hnames⟩

theorem locate_of_spelledAs {path path' : String} (h : SpelledAs path path') :
    settings.locate host path' = settings.locate host path := by
  induction h with
  | refl => rfl
  | tail _ hstep ih => exact (locate_of_respelled hstep.1 hstep.2).trans ih

/-- The location of a path is the lexical normal form of the path that has to be made normal.  It
is found again from its own text, and from every other spelling of the path. -/
theorem locate_lexically (settings : Settings) (host : Host) (path : String) :
    ∃ (target : String) (names : List (List Char)) (slashes : Nat),
      (∀ other, settings.Target host path other ↔ other = target) ∧
      (∀ others, Location.IsNormalForm (Text.pieces '/' target.toList) others ↔
        others = names) ∧
      (settings.locate host path).text.toList =
        List.replicate slashes '/' ++ Text.join '/' names ∧
      (∀ name ∈ names, Location.IsName name) ∧
      (names ≠ [] → (settings.locate host path).text.toList.getLast? ≠ some '/') ∧
      (slashes = 1 ∨ slashes = 2) ∧
      (slashes = 2 ↔ IsPlain path ∧
        ∃ rest, path.toList = '/' :: '/' :: rest ∧ rest.head? ≠ some '/') ∧
      isVirtual (settings.locate host path).text = false ∧
      (∀ (settings' : Settings) (host' : Host),
        settings'.locate host' (settings.locate host path).text = settings.locate host path) ∧
      ∀ path', SpelledAs path path' →
        settings.locate host path' = settings.locate host path := by
  obtain ⟨target, htarget⟩ := settings.exists_target host path
  have hnormal := isNormal_locate settings host path
  have hparts := htarget.parts_locate
  refine ⟨target, (settings.locate host path).parts.map Part.chars,
    (settings.locate host path).anchor.slashes, ?target, ?form, hnormal.toList_text, ?names,
    ?last, ?slashes, ?two, hnormal.isPlain_text.isVirtual_eq_false, hnormal.locate_text,
    fun path' => locate_of_spelledAs⟩
  case target =>
    exact fun other => ⟨htarget.unique, fun heq => heq ▸ htarget⟩
  case form =>
    intro others
    rw [hparts]
    exact Location.isNormalForm_iff fun c => Text.not_mem_of_mem_pieces
  case names =>
    intro name hname
    obtain ⟨part, hpart, rfl⟩ := List.mem_map.mp hname
    exact (Location.isName_chars_iff part).mpr (hnormal.no_up part hpart)
  case last =>
    exact fun hnames => hnormal.getLast?_text (mt List.map_eq_nil_iff.mpr hnames)
  case slashes =>
    rw [locate_anchor]
    split
    · exact .inr rfl
    · exact .inl rfl
  case two =>
    rw [locate_anchor, ← Anchor.ofChars_eq_doubleRoot_iff]
    split
    · next hdouble =>
      have habsolute : Anchor.ofChars path.toList ≠ .relative := hdouble ▸ Anchor.noConfusion
      have hplain := isPlain_of_slash ((Anchor.ofChars_ne_relative_iff _).mp habsolute)
      exact ⟨fun _ => ⟨hplain, hdouble⟩, fun _ => rfl⟩
    · next hsingle => exact ⟨fun h => absurd h (by decide), fun h => absurd h.2 hsingle⟩

end Settings

/-! ## A folder in the root folder -/

/-- A process in the folder `/fs`. -/
def hostInFs : Host where
  current := Location.partsOf ['f', 's']
  home := .ofString "/fs"
  installation := .ofString "/fs/project"
  libraries := .standard (.ofString "/fs/project")

/-- Behind a marker, a second slash and then a name with the way back change nothing. -/
theorem Settings.locate_lexically_wayBack :
    SpelledAs "res://a/b" "res://a//n/../b" ∧
      (Settings.standard hostInFs).locate hostInFs "res://a//n/../b" =
        (Settings.standard hostInFs).locate hostInFs "res://a/b" := by
  have hslash : Location.Inserted "a/b".toList "a//b".toList := by
    have hplace : Location.Place [['a']] [[]] [['b']] :=
      .inner List.mem_cons_self (List.cons_ne_nil _ _) (List.cons_ne_nil _ _)
    exact .intro (by decide) .empty hplace
  have hback : Location.Inserted "a//b".toList "a//n/../b".toList := by
    have hname : Location.IsName ['n'] := ⟨by decide, by decide, by decide, by decide⟩
    have hplace : Location.Place [['a'], []] [['n'], ['.', '.']] [['b']] :=
      .inner List.mem_cons_self (List.cons_ne_nil _ _) (List.cons_ne_nil _ _)
    exact .intro (by decide) (.back hname) hplace
  have hspelled : SpelledAs "res://a/b" "res://a//n/../b" :=
    .tail (.single ⟨.virtual .project hslash, fun h => not_isPlain_marker .project "a/b" h.1⟩)
      ⟨.virtual .project hback, fun h => not_isPlain_marker .project "a//b" h.1⟩
  obtain ⟨-, -, -, -, -, -, -, -, -, -, -, -, hrest⟩ :=
    Settings.locate_lexically (Settings.standard hostInFs) hostInFs "res://a/b"
  exact ⟨hspelled, hrest _ hspelled⟩

/-- A doubled slash can lead elsewhere: it makes the marker of a root out of a first name. -/
theorem Settings.not_locate_of_doubled_slash :
    Respelled "res:/a" "res://a" ∧
      ((Settings.standard hostInFs).locate hostInFs "res:/a").text = "/fs/res:/a" ∧
      ((Settings.standard hostInFs).locate hostInFs "res://a").text = "/fs/project/a" ∧
      (Settings.standard hostInFs).locate hostInFs "res://a" ≠
        (Settings.standard hostInFs).locate hostInFs "res:/a" := by
  have hplain : IsPlain "res:/a" := (isPlain_iff _).mpr (by decide)
  have hplace : Location.Place [['r', 'e', 's', ':']] [[]] [['a']] :=
    .inner List.mem_cons_self (List.cons_ne_nil _ _) (List.cons_ne_nil _ _)
  have hinserted : Location.Inserted "res:/a".toList "res://a".toList :=
    .intro (by decide) .empty hplace
  exact ⟨.plain hplain hinserted, by decide, by decide, by decide⟩

end CutsceneCatalog
