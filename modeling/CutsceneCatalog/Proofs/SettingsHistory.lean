import CutsceneCatalog.Proofs.EnvReferences
import CutsceneCatalog.Proofs.SettingsSources

/-!
# Histories of settings

Whatever is found stays behind in the variables: finding the settings of an environment makes the
assignments of its file for good, or those of the fallback (`Settings.find_snd`), and nothing else
outlives a reset.  So one call lays the assignments it makes over the variables
(`SettingsCall.vars_performed`), and a history those of all its calls, in order
(`SettingsCall.vars_performAll`).

Settings found later are those of a process that starts with the variables of then.  They differ
from what the first call of the process would have found only if a variable has changed that their
own search looks at (`Settings.Consults`): `Session.settings_after` is the main statement.  Which
variables a text of assignments looks up is known of its reader only (`Libraries.ReadsOnly`), and
the one at hand looks up those that are referred to (`Libraries.readsOnly_standard`).  A file of
assignments can reach the settings of another environment, and does
(`Session.settings_after_otherEnvironment`).
-/

namespace CutsceneCatalog

/-- Variables with the same values under some names. -/
def Variables.AgreeOn (names : String → Prop) (vars other : Variables) : Prop :=
  ∀ name, names name → vars.get? name = other.get? name

/-- What a text assigns depends on no variables but those that it looks up. -/
def Libraries.ReadsOnly (libraries : Libraries) (lookedUp : List Char → List String) : Prop :=
  ∀ (cs : List Char) (vars other : Variables), vars.AgreeOn (· ∈ lookedUp cs) other →
    libraries.assignments vars cs = libraries.assignments other cs

theorem Libraries.readsOnly_standard (installation : Location) :
    (standard installation).ReadsOnly EnvFile.lookedUp :=
  fun _ _ _ h => EnvFile.read_congr h

namespace Settings

variable (host : Host) (files : Files) (place : SettingsPlace) (environment : String)

/-! ## One search -/

/-- The assignments that are made when the settings of an environment are looked for. -/
def made (vars : Variables) : List (String × String) :=
  if environments.contains environment then
    match assignmentsText files host (place.assignments environment) with
    | .ok (some cs) => Variables.held (host.libraries.assigned vars cs)
    | _ => []
  else []

/-- The variables that decide what is found: those that the text of assignments looks up, and those
of the fields that it does not assign. -/
inductive Consults (lookedUp : List Char → List String) (vars : Variables) : String → Prop
  | reference {cs : List Char} {name : String}
      (read : assignmentsText files host (place.assignments environment) = .ok (some cs))
      (mem : name ∈ lookedUp cs) : Consults lookedUp vars name
  | field (field : SettingField)
      (unassigned : ∀ cs,
        assignmentsText files host (place.assignments environment) = .ok (some cs) →
          field.variableName ∉ (host.libraries.assigned vars cs).map Prod.fst) :
      Consults lookedUp vars field.variableName

/-- The assignments stay made, whether or not settings are found. -/
theorem find_snd (vars : Variables) :
    (find host files place environment vars).2 =
      vars.setAll (made host files place environment vars) := by
  unfold find made
  split
  · cases assignmentsText files host (place.assignments environment) with
    | error e => rfl
    | ok text =>
      cases text with
      | none => rfl
      | some cs =>
        dsimp only
        rw [Variables.assignAll_eq, ← Libraries.assigned]
        cases (host.libraries.assigned vars cs).findSome? Variables.fault? <;> rfl
  · rfl

variable {host files place environment}

theorem chosenSettings_congr {vars other : Variables} {path : Location}
    (h : ∀ field : SettingField,
      vars.get? field.variableName = other.get? field.variableName) :
    chosenSettings host files vars path environment =
      chosenSettings host files other path environment := by
  have hchosen (fields : List (Value × Value)) :
      chosenValue vars fields = chosenValue other fields :=
    funext fun field => chosenValue_congr (h field) rfl
  unfold chosenSettings
  simp only [hchosen]

/-- Variables that agree on what a search consults give the same settings, or the same error. -/
theorem find_congr {lookedUp : List Char → List String}
    (hreads : host.libraries.ReadsOnly lookedUp) {vars other : Variables}
    (h : vars.AgreeOn (Consults host files place environment lookedUp vars) other) :
    (find host files place environment vars).1 = (find host files place environment other).1 := by
  unfold find
  split
  · cases htext : assignmentsText files host (place.assignments environment) with
    | error e => rfl
    | ok text =>
      cases text with
      | none =>
        refine chosenSettings_congr fun field => h _ (.field field fun cs hcs => ?_)
        rw [htext] at hcs
        cases hcs
      | some cs =>
        have hassignments : host.libraries.assignments vars cs =
            host.libraries.assignments other cs :=
          hreads cs vars other fun name hname => h name (.reference htext hname)
        dsimp only
        rw [Variables.assignAll_eq, Variables.assignAll_eq, ← hassignments, ← Libraries.assigned]
        cases hfault : (host.libraries.assigned vars cs).findSome? Variables.fault? with
        | some fault => rfl
        | none =>
          rw [Variables.held_eq_self hfault]
          -- The variable of a field may differ before if the file assigns it.
          refine chosenSettings_congr fun field => Variables.get?_setAll_congr fun hfield =>
            h _ (.field field fun cs' hcs' => ?_)
          rw [htext] at hcs'
          obtain rfl := Option.some.inj (Except.ok.inj hcs')
          exact hfield
  · rfl

end Settings

/-! ## Histories -/

/-- What may be asked of the settings, each time with the files of then. -/
inductive SettingsCall
  /-- Gives the settings in use, and finds them first if there are none. -/
  | get (files : Files) (named : Option String)
  | reset
  /-- Finds settings without using them. -/
  | find (files : Files) (place : SettingsPlace) (environment : String)

namespace SettingsCall

variable (host : Host)

/-- The session after a call, whether or not it succeeds. -/
def performed (session : Session) : SettingsCall → Session
  | .get files named => (session.settings host files named).2
  | .reset => session.reset
  | .find files place environment =>
      { session with vars := (Settings.find host files place environment session.vars).2 }

/-- The assignments that a call makes; it makes none if settings are in use. -/
def made (session : Session) : SettingsCall → List (String × String)
  | .get files named =>
      match session.cached with
      | some _ => []
      | none =>
          Settings.made host files (.standard host) (session.environment named) session.vars
  | .reset => []
  | .find files place environment => Settings.made host files place environment session.vars

/-- The assignments that calls make one after the other. -/
def madeAll (session : Session) : List SettingsCall → List (String × String)
  | [] => []
  | call :: rest => call.made host session ++ madeAll (call.performed host session) rest

/-- The session after calls made one after the other. -/
def performAll (session : Session) (calls : List SettingsCall) : Session :=
  calls.foldl (performed host) session

variable {host}

/-- One call lays the assignments it makes over the variables. -/
theorem vars_performed (session : Session) (call : SettingsCall) :
    (call.performed host session).vars = session.vars.setAll (call.made host session) := by
  cases call with
  | reset => rfl
  | find files place environment =>
    exact Settings.find_snd host files place environment session.vars
  | get files named =>
    have hfind :=
      Settings.find_snd host files (.standard host) (session.environment named) session.vars
    unfold performed made Session.settings
    cases session.cached with
    | some numbered => rfl
    | none =>
      dsimp only
      rw [← hfind]
      rcases Settings.find host files (.standard host) (session.environment named) session.vars with
        ⟨e | settings, vars⟩ <;> rfl

/-- Calls lay the assignments they make over the variables. -/
theorem vars_performAll (session : Session) (calls : List SettingsCall) :
    (performAll host session calls).vars = session.vars.setAll (madeAll host session calls) := by
  induction calls generalizing session with
  | nil => rfl
  | cons call rest ih =>
    rw [madeAll, Variables.setAll_append, ← vars_performed]
    exact ih _

end SettingsCall

namespace Session

variable {host : Host} {files : Files} {named : Option String}

theorem environment_congr {session other : Session}
    (h : named.getD "" = "" →
      session.vars.get? "ENVIRONMENT" = other.vars.get? "ENVIRONMENT") :
    session.environment named = other.environment named := by
  unfold environment environment.fallback
  cases named with
  | none => simp only [h rfl]
  | some name =>
    dsimp only
    split
    · next hname => rw [h hname]
    · rfl

/-- Settings in use are the answer, and nothing changes. -/
theorem settings_of_cached {session : Session} {numbered : Nat × Settings}
    (h : session.cached = some numbered) :
    session.settings host files named = (.ok numbered, session) := by
  rw [settings, h]

/-- Where no settings are in use, they are found for the environment of the request.  They are put
into use under the next number, and if none are found, none are in use. -/
theorem settings_of_find {session : Session} (h : session.cached = none) :
    session.settings host files named =
      match Settings.find host files (.standard host) (session.environment named) session.vars with
      | (.ok found, vars) =>
          (.ok (session.found, found), ⟨vars, some (session.found, found), session.found + 1⟩)
      | (.error e, vars) => (.error e, ⟨vars, none, session.found⟩) := by
  unfold settings
  split
  · next hcached =>
    rw [h] at hcached
    cases hcached
  · rcases Settings.find host files (.standard host) (session.environment named) session.vars with
      ⟨e | found, vars⟩
    · dsimp only
      rw [h]
    · rfl

/-- What is found is what is answered. -/
theorem settings_of_cached_eq_none {session : Session} (h : session.cached = none) :
    (session.settings host files named).1.map Prod.snd =
      (Settings.find host files (.standard host) (session.environment named) session.vars).1 := by
  rw [settings_of_find h]
  rcases Settings.find host files (.standard host) (session.environment named) session.vars with
    ⟨e | settings, vars⟩ <;> rfl

/-- After any calls, the variables are those at the start with all assignments of the calls laid
over them, so that names which no call assigns are as they were.  What is found from there, or by
the first use of settings after a reset, is what a process finds at once that starts with these
variables, and also what the first call of this process would have found if the variables agree on
what this search consults. -/
theorem settings_after (host : Host) {lookedUp : List Char → List String}
    (hreads : host.libraries.ReadsOnly lookedUp) (vars : Variables) (calls : List SettingsCall) :
    let later := SettingsCall.performAll host (start vars) calls
    let assigned := SettingsCall.madeAll host (start vars) calls
    later.vars = vars.setAll assigned ∧
    (∀ names : String → Prop, (∀ name ∈ assigned.map Prod.fst, ¬ names name) →
      vars.AgreeOn names later.vars) ∧
    (∀ files place environment,
      vars.AgreeOn (Settings.Consults host files place environment lookedUp vars) later.vars →
        (Settings.find host files place environment later.vars).1 =
          (Settings.find host files place environment vars).1) ∧
    ∀ files named,
      (later.reset.settings host files named).1.map Prod.snd =
        ((start later.vars).settings host files named).1.map Prod.snd ∧
      ((named.getD "" = "" →
          vars.get? "ENVIRONMENT" = later.vars.get? "ENVIRONMENT") →
        vars.AgreeOn (Settings.Consults host files (.standard host)
          ((start vars).environment named) lookedUp vars) later.vars →
        (later.reset.settings host files named).1.map Prod.snd =
          ((start vars).settings host files named).1.map Prod.snd) := by
  intro later assigned
  have hvars : later.vars = vars.setAll assigned := SettingsCall.vars_performAll (start vars) calls
  have hreset (files : Files) (named : Option String) :
      (later.reset.settings host files named).1.map Prod.snd =
        ((start later.vars).settings host files named).1.map Prod.snd := by
    -- A reset forgets all but the number of settings found, which is no part of them.
    rw [settings_of_cached_eq_none rfl, settings_of_cached_eq_none rfl]
    rfl
  refine ⟨hvars, ?_, ?_, ?_⟩
  · intro names hnames name hname
    rw [hvars]
    exact (Variables.get?_setAll_of_notMem fun hmem => hnames name hmem hname).symm
  · intro files place environment hagree
    exact (Settings.find_congr hreads hagree).symm
  · intro files named
    refine ⟨hreset files named, fun henvironment hagree => ?_⟩
    have hsame : (start vars).environment named = (start later.vars).environment named :=
      environment_congr henvironment
    rw [hreset, settings_of_cached_eq_none rfl, settings_of_cached_eq_none rfl, ← hsame]
    exact (Settings.find_congr hreads hagree).symm

/-- The file of `dev` assigns a variable that the fallback of `local` does not look up, and the
depth found for `local` is the one that the fallback refers to. -/
theorem settings_after_unrelatedFile :
    let files : Files := ⟨[([⟨".env", rfl⟩],
        .file (Settings.fileOf "CUTSCENE_MAX_RULE_DEPTH=$\x7bDEPTH\x7d\n")),
      ([⟨"config", rfl⟩], .folder),
      ([⟨"config", rfl⟩, ⟨".env.dev", rfl⟩], .file (Settings.fileOf "NOTE=1\n"))]⟩
    let vars : Variables := [("DEPTH", "7")]
    let later := SettingsCall.performAll .atRoot (start vars) [.get files (some "dev")]
    Host.atRoot.libraries.ReadsOnly EnvFile.lookedUp ∧
      vars.AgreeOn (Settings.Consults .atRoot files (.standard .atRoot) "local" EnvFile.lookedUp
        vars) later.vars ∧
      (later.reset.settings .atRoot files (some "local")).1.map Prod.snd =
        ((start vars).settings .atRoot files (some "local")).1.map Prod.snd ∧
      ((start vars).settings .atRoot files (some "local")).1.map
        (fun numbered => numbered.2.maxRuleDepth) = .ok 7 := by
  intro files vars later
  have hreads : Host.atRoot.libraries.ReadsOnly EnvFile.lookedUp :=
    Libraries.readsOnly_standard _
  obtain ⟨-, hagree, -, hlater⟩ :=
    settings_after .atRoot hreads vars [.get files (some "dev")]
  have hassigned : SettingsCall.madeAll .atRoot (start vars) [.get files (some "dev")] =
      [("NOTE", "1")] := by
    decide +kernel
  have htext : assignmentsText files .atRoot
      ((SettingsPlace.standard .atRoot).assignments "local") =
        .ok (some "CUTSCENE_MAX_RULE_DEPTH=$\x7bDEPTH\x7d\n".toList) := by
    decide +kernel
  have hunconsulted : ¬ Settings.Consults .atRoot files (.standard .atRoot) "local"
      EnvFile.lookedUp vars "NOTE" := by
    generalize hname : "NOTE" = name
    rintro (⟨hread, hmem⟩ | ⟨field, -⟩)
    · obtain rfl := Option.some.inj (Except.ok.inj (htext.symm.trans hread))
      subst hname
      exact absurd hmem (by decide +kernel)
    · cases field <;> exact absurd hname (by decide)
  have hconsults : vars.AgreeOn (Settings.Consults .atRoot files (.standard .atRoot) "local"
      EnvFile.lookedUp vars) later.vars := by
    refine hagree _ fun name hname => ?_
    rw [hassigned] at hname
    rw [List.mem_singleton.mp hname]
    exact hunconsulted
  exact ⟨hreads, hconsults, (hlater files (some "local")).2 (by simp) hconsults,
    by decide +kernel⟩

/-- The depth that the file of `dev` assigns is found for `local` afterwards. -/
theorem settings_after_otherEnvironment :
    let files : Files := ⟨[([⟨"config", rfl⟩], .folder),
      ([⟨"config", rfl⟩, ⟨".env.dev", rfl⟩],
        .file (Settings.fileOf "CUTSCENE_MAX_RULE_DEPTH=5\n"))]⟩
    let later := SettingsCall.performAll .atRoot (start [])
      [.get files (some "dev"), .reset]
    let found := (later.settings .atRoot files (some "local")).1.map Prod.snd
    let first := ((start []).settings .atRoot files (some "local")).1.map Prod.snd
    found ≠ first ∧ found.map Settings.maxRuleDepth = .ok 5 ∧
      first.map Settings.maxRuleDepth = .ok 64 := by
  decide +kernel

end Session

end CutsceneCatalog
