import CutsceneCatalog.Proofs.SettingsHistory

/-!
# The settings in use

A session puts the first settings into use that it finds, and keeps them until it is reset.  Here
its files and its variables change under it in any way: each request comes with the files of then,
and `SessionEvent.change` stands for whatever happens to the variables in between.

What one event does to the settings in use can be read off its answer: they are the ones that were
in use, or the ones just answered (`SessionEvent.cached_performed_iff`).  So between two resets they
are the ones that some request answered, and as a session has one place for them, all requests that
succeed answer the same (`Session.settings_in_use`).  A request looks at files and variables only if
none has succeeded yet, and then it finds what its own environment gives at that moment.
-/

namespace CutsceneCatalog

/-- What may happen to a session. -/
inductive SessionEvent
  | call (made : SettingsCall)
  /-- The variables are changed from outside. -/
  | change (vars : Variables)

namespace SessionEvent

variable (host : Host)

/-- The session after an event. -/
def performed (session : Session) : SessionEvent → Session
  | .call made => made.performed host session
  | .change vars => { session with vars := vars }

/-- The session after events, one after the other. -/
def performAll (session : Session) (events : List SessionEvent) : Session :=
  events.foldl (performed host) session

/-- What an event answers, if it asks for the settings in use. -/
def answer? (session : Session) : SessionEvent → Option (Except SettingsError (Nat × Settings))
  | .call (.get files named) => some (session.settings host files named).1
  | .call .reset | .call (.find ..) | .change _ => none

/-- What events answer, one after the other. -/
def answers (session : Session) :
    List SessionEvent → List (Except SettingsError (Nat × Settings))
  | [] => []
  | event :: rest =>
      (event.answer? host session).toList ++ answers (event.performed host session) rest

end SessionEvent

/-! ## The environment of a request -/

namespace Session

/-- The environment that a request is for: the one it names, else the one of the variable, else
`local`. -/
inductive Asks (vars : Variables) : Option String → String → Prop
  | named {name : String} (h : name ≠ "") : Asks vars (some name) name
  | variable {named : Option String} {name : String} (h : named.getD "" = "")
      (hvar : vars.get? "ENVIRONMENT" = some name) : Asks vars named name
  | standard {named : Option String} (h : named.getD "" = "")
      (hvar : vars.get? "ENVIRONMENT" = none) : Asks vars named "local"

theorem asks_environment (session : Session) (named : Option String) :
    Asks session.vars named (session.environment named) := by
  have hfallback (h : named.getD "" = "") :
      Asks session.vars named (environment.fallback session) := by
    unfold environment.fallback
    cases hvar : session.vars.get? "ENVIRONMENT" with
    | some name => exact .variable h hvar
    | none => exact .standard h hvar
  unfold environment
  cases named with
  | none => exact hfallback rfl
  | some name =>
    dsimp only
    split
    · next hname => exact hfallback hname
    · next hname => exact .named hname

end Session

/-! ## One event, then all -/

namespace SessionEvent

variable {host : Host} {session : Session} {event : SessionEvent} {events : List SessionEvent}
  {numbered : Nat × Settings}

/-- What an event that is no reset can do to a session, with its answer. -/
inductive Step (session : Session) :
    Option (Except SettingsError (Nat × Settings)) → Session → Prop
  | silent (vars : Variables) : Step session none { session with vars := vars }
  | kept {numbered : Nat × Settings} (inUse : session.cached = some numbered) :
      Step session (some (.ok numbered)) session
  | failed (e : SettingsError) (vars : Variables) (unused : session.cached = none) :
      Step session (some (.error e)) { session with vars := vars }
  | found (settings : Settings) (vars : Variables) (unused : session.cached = none) :
      Step session (some (.ok (session.found, settings)))
        ⟨vars, some (session.found, settings), session.found + 1⟩

theorem step_performed (host : Host) (session : Session) (h : event ≠ .call .reset) :
    Step session (event.answer? host session) (event.performed host session) := by
  cases event with
  | change vars => exact .silent vars
  | call made =>
    cases made with
    | reset => exact absurd rfl h
    | find files place environment => exact .silent _
    | get files named =>
      have hget : Step session (some (session.settings host files named).1)
          (session.settings host files named).2 := by
        cases hcached : session.cached with
        | some numbered =>
          rw [Session.settings_of_cached hcached]
          exact .kept hcached
        | none =>
          rw [Session.settings_of_find hcached]
          rcases Settings.find host files (.standard host) (session.environment named)
            session.vars with ⟨e | settings, vars⟩
          · dsimp only
            rw [← hcached]
            exact .failed e vars hcached
          · exact .found settings vars hcached
      exact hget

/-- The settings in use after an event are those before it, or those that it answers. -/
theorem cached_performed_iff (h : event ≠ .call .reset) :
    (event.performed host session).cached = some numbered ↔
      session.cached = some numbered ∨ event.answer? host session = some (.ok numbered) := by
  have hstep := step_performed host session h
  generalize event.answer? host session = answer, event.performed host session = next at hstep ⊢
  cases hstep with
  | silent vars => simp
  | kept inUse => simp [inUse]
  | failed e vars unused => simp [unused]
  | found settings vars unused => simp [unused]

theorem performAll_cons (session : Session) (event : SessionEvent) (rest : List SessionEvent) :
    performAll host session (event :: rest) =
      performAll host (event.performed host session) rest := rfl

theorem mem_answers_cons {answer : Except SettingsError (Nat × Settings)}
    {rest : List SessionEvent} :
    answer ∈ answers host session (event :: rest) ↔
      event.answer? host session = some answer ∨
        answer ∈ answers host (event.performed host session) rest := by
  rw [answers, List.mem_append, Option.mem_toList]

/-- Without a reset, the settings in use in the end are those in use at the start, or those that
some event answered. -/
theorem cached_performAll_iff (h : SessionEvent.call .reset ∉ events) :
    (performAll host session events).cached = some numbered ↔
      session.cached = some numbered ∨ .ok numbered ∈ answers host session events := by
  induction events generalizing session with
  | nil => simp [performAll, answers]
  | cons event rest ih =>
    obtain ⟨hevent, hrest⟩ := List.ne_and_not_mem_of_not_mem_cons h
    rw [performAll_cons, ih hrest, cached_performed_iff hevent.symm, mem_answers_cons, or_assoc]

/-- The number of the settings in use is below the number of settings found so far. -/
def Counted (session : Session) : Prop :=
  ∀ numbered, session.cached = some numbered → numbered.1 < session.found

/-- The number of settings found never falls, and is above every number answered. -/
theorem counted_performed (host : Host) (h : Counted session) (event : SessionEvent) :
    Counted (event.performed host session) ∧ session.found ≤ (event.performed host session).found ∧
      ∀ numbered, event.answer? host session = some (.ok numbered) →
        numbered.1 < (event.performed host session).found := by
  by_cases hreset : event = .call .reset
  · subst hreset
    exact ⟨nofun, Nat.le_refl _, nofun⟩
  have hstep := step_performed host session hreset
  generalize event.answer? host session = answer, event.performed host session = next at hstep ⊢
  cases hstep with
  | silent vars => exact ⟨h, Nat.le_refl _, nofun⟩
  | failed e vars unused => exact ⟨h, Nat.le_refl _, nofun⟩
  | kept inUse =>
    refine ⟨h, Nat.le_refl _, fun numbered hok => h numbered ?_⟩
    rw [inUse, Except.ok.inj (Option.some.inj hok)]
  | found settings vars unused =>
    refine ⟨fun numbered hnew => ?_, Nat.le_succ _, fun numbered hok => ?_⟩
    · obtain rfl := Option.some.inj hnew
      exact Nat.lt_succ_self _
    · obtain rfl := Except.ok.inj (Option.some.inj hok)
      exact Nat.lt_succ_self _

theorem counted_performAll (host : Host) (h : Counted session) (events : List SessionEvent) :
    session.found ≤ (performAll host session events).found ∧
      ∀ numbered, .ok numbered ∈ answers host session events →
        numbered.1 < (performAll host session events).found := by
  induction events generalizing session with
  | nil => exact ⟨Nat.le_refl _, nofun⟩
  | cons event rest ih =>
    obtain ⟨hcounted, hle, hanswer⟩ := counted_performed host h event
    obtain ⟨hrest, hanswers⟩ := ih hcounted
    rw [performAll_cons]
    refine ⟨hle.trans hrest, fun numbered hmem => ?_⟩
    obtain hfirst | hlater := mem_answers_cons.mp hmem
    · exact (hanswer numbered hfirst).trans_le hrest
    · exact hanswers numbered hlater

end SessionEvent

namespace Session

open SessionEvent

/-- From one reset to the next, whatever happens to files and variables.  All requests that succeed
answer the same settings.  Once one has, a request answers them and leaves the session as it is.
Until then, a request finds the settings of the environment that it asks for, among the files and
variables of that moment; they are put into use under a number never answered before, and if none
are found, none are in use. -/
theorem settings_in_use (host : Host) (vars : Variables) (earlier stretch : List SessionEvent)
    (h : SessionEvent.call .reset ∉ stretch) :
    let opened := (performAll host (start vars) earlier).reset
    (∀ first second, .ok first ∈ answers host opened stretch →
      .ok second ∈ answers host opened stretch → second = first) ∧
    ∀ before files named after, stretch = before ++ .call (.get files named) :: after →
      let now := performAll host opened before
      (∀ numbered, .ok numbered ∈ answers host opened before →
        now.settings host files named = (.ok numbered, now)) ∧
      ((∀ numbered, .ok numbered ∉ answers host opened before) →
        (∃ environment, Asks now.vars named environment ∧
          now.settings host files named =
            match Settings.find host files (.standard host) environment now.vars with
            | (.ok found, vars) =>
                (.ok (now.found, found), ⟨vars, some (now.found, found), now.found + 1⟩)
            | (.error e, vars) => (.error e, ⟨vars, none, now.found⟩)) ∧
        ∀ numbered, .ok numbered ∈ answers host (start vars) earlier →
          numbered.1 < now.found) := by
  intro opened
  have hcached (events : List SessionEvent) (hevents : SessionEvent.call .reset ∉ events)
      (numbered : Nat × Settings) : (performAll host opened events).cached = some numbered ↔
        .ok numbered ∈ answers host opened events := by
    have hopened : opened.cached ≠ some numbered := nofun
    rw [cached_performAll_iff hevents, or_iff_right hopened]
  refine ⟨?_, ?_⟩
  · intro first second hfirst hsecond
    rw [← hcached stretch h] at hfirst hsecond
    exact Option.some.inj (hsecond.symm.trans hfirst)
  · rintro before files named after rfl
    intro now
    have hbefore := hcached before (mt (List.mem_append_left _) h)
    refine ⟨?_, ?_⟩
    · exact fun numbered hanswered => settings_of_cached ((hbefore numbered).mpr hanswered)
    · intro hnone
      have hunused : now.cached = none := by
        rw [Option.eq_none_iff_forall_ne_some]
        exact fun numbered => mt (hbefore numbered).mp (hnone numbered)
      refine ⟨⟨_, asks_environment now named, settings_of_find hunused⟩, ?_⟩
      intro numbered hanswered
      have hstart : Counted (start vars) := nofun
      have hopened : Counted opened := nofun
      have hlt := (counted_performAll host hstart earlier).2 numbered hanswered
      exact hlt.trans_le (counted_performAll host hopened before).1

/-- After a request that failed, settings of `dev` are put into use, and answer a request for `prd`
when the files are gone and a variable has changed. -/
theorem settings_in_use_otherEnvironment :
    let files : Files := ⟨[([⟨"config", rfl⟩], .folder),
      ([⟨"config", rfl⟩, ⟨".env.dev", rfl⟩],
        .file (Settings.fileOf "CUTSCENE_MAX_RULE_DEPTH=5\n"))]⟩
    let before : List SessionEvent := [.call (.get files (some "nope")),
      .call (.get files (some "dev")), .change [("ENVIRONMENT", "acc")]]
    let now := performAll .atRoot (start []) before
    let found : Settings :=
      { Settings.standard .atRoot with maxRuleDepth := 5, one_le_depth := by decide }
    SessionEvent.call .reset ∉ before ++ [.call (.get ⟨[]⟩ (some "prd"))] ∧
      answers .atRoot (start []) before =
        [.error (.unknownEnvironment "nope"), .ok (0, found)] ∧
      now.settings .atRoot ⟨[]⟩ (some "prd") = (.ok (0, found), now) := by
  intro files before now found
  have hreset : SessionEvent.call .reset ∉ before ++ [.call (.get ⟨[]⟩ (some "prd"))] := by
    simp [before]
  have hanswers : answers .atRoot (start []) before =
      [.error (.unknownEnvironment "nope"), .ok (0, found)] := by
    decide +kernel
  obtain ⟨-, hrequest⟩ := settings_in_use .atRoot [] [] _ hreset
  obtain ⟨hkept, -⟩ := hrequest before ⟨[]⟩ (some "prd") [] rfl
  have hmem : .ok (0, found) ∈ answers .atRoot (start []) before := by
    rw [hanswers]
    exact List.mem_cons_of_mem _ List.mem_cons_self
  exact ⟨hreset, hanswers, hkept (0, found) hmem⟩

end Session

end CutsceneCatalog
