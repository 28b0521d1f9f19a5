import InitialLoad.Proofs.ExitStatus
import InitialLoad.Proofs.PrincipalLock

/-!
# The configuration gate

A process starts in an environment and a directory, with nothing kept from before.
It resolves the settings and configures the log, and what is wrong with either ends
it before any call: `Misconfigured` says when that is so, and by which failure.
Otherwise it goes on as the program does, from the settings that were resolved.

A load creates its database user first, and a server that keeps database users does
not let another load do so again.  So of two processes with the same settings, one
after the other, not both succeed.
-/

namespace InitialLoad

variable {σ α : Type}

/-- The server keeps database users, and refuses to create one by a name that is
known. -/
structure Remembers (server : Server σ) (known : Text → Text → σ → Prop) : Prop where
  refused : ∀ {database name : Text} (pwd : Value) (roles : List Value) {s : σ},
    known database name s →
      ∃ f t, server.answer (.createUser database (.text name) pwd roles) s = (.error f, t)
  recorded : ∀ {database name : Text} {pwd : Value} {roles : List Value} {s t : σ},
    server.answer (.createUser database (.text name) pwd roles) s = (.ok (), t) →
      known database name t
  kept : ∀ {database name : Text} (q : Request) (s : σ),
    known database name s → known database name (server.answer q s).2

theorem KeepsUsers.remembers {server : Server σ} {known : Text → Text → σ → Prop}
    {reaches : Request → Prop} (keeps : KeepsUsers server known reaches) :
    Remembers server known where
  refused := by
    intro database name pwd roles s hknown
    obtain ⟨f, hanswer, -⟩ := keeps.refused pwd roles hknown
    exact ⟨f, s, hanswer⟩
  recorded := keeps.recorded
  kept := keeps.kept

namespace Remembers

variable {server : Server σ} {known : Text → Text → σ → Prop} {database name : Text}
  {pwd : Value} {roles : List Value} {s t : σ} {qs : List Request}

theorem known_run (remembers : Remembers server known) (p : Procedure α) (c : Clock)
    (h : known database name s) : known database name (p.run server s c).state :=
  (Procedure.sends_any p).preserves (fun q s _ => remembers.kept q s) h c

theorem known_next (remembers : Remembers server known) {q : Request} {answer : q.Answer}
    (head : server.answer q s = (.ok answer, t)) (h : known database name s) :
    known database name t := by
  have hnext := remembers.kept q s h
  rwa [head] at hnext

theorem known_accepted (remembers : Remembers server known) (h : Accepts server s qs t)
    (hknown : known database name s) : known database name t := by
  induction h with
  | nil s => exact hknown
  | cons head tail ih => exact ih (remembers.known_next head hknown)

/-- Where a creation was among the calls that were accepted, the name is known. -/
theorem known_of_mem (remembers : Remembers server known) (h : Accepts server s qs t)
    (hmem : .createUser database (.text name) pwd roles ∈ qs) : known database name t := by
  induction h with
  | nil s => cases hmem
  | cons head tail ih =>
      rcases List.mem_cons.mp hmem with rfl | hlater
      · exact remembers.known_accepted tail (remembers.recorded head)
      · exact ih hlater

/-- Where the name is known, no creation is among the calls that are accepted. -/
theorem not_mem_of_known (remembers : Remembers server known) (h : Accepts server s qs t)
    (hknown : known database name s) : .createUser database (.text name) pwd roles ∉ qs := by
  induction h with
  | nil s => exact List.not_mem_nil
  | cons head tail ih =>
      rw [List.mem_cons, not_or]
      refine ⟨?_, ih (remembers.known_next head hknown)⟩
      rintro rfl
      obtain ⟨f, u, hrefused⟩ := remembers.refused pwd roles hknown
      rw [hrefused] at head
      cases head

end Remembers

namespace Seeder

/-! ## What is wrong with a configuration -/

/-- The settings do not resolve, as a value in them is not acceptable, or the log
level in them is not the name of one. -/
inductive Misconfigured (x : Seeder) : Failure → Prop
  | unresolved {f : Failure} (h : x.resolution.1 = .error f)
      (hunacceptable : f.problem.isUnacceptable = true) : Misconfigured x f
  | level {v : Settings} (h : x.resolution.1 = .ok v)
      (hlevel : Logging.threshold? v.logLevel = none) :
      Misconfigured x (Failure.of (.unknownLevel (.text v.logLevel)))

/-- Settings fail to resolve in no other way. -/
theorem misconfigured_of_unresolved {x : Seeder} {f : Failure} (h : x.resolution.1 = .error f) :
    Misconfigured x f := by
  refine .unresolved h ?_
  obtain ⟨faults, rfl⟩ | ⟨fault, rfl⟩ := x.resolution_fails.1 f h <;> rfl

/-- A configuration that nothing is wrong with has settings. -/
theorem settings_of_configured {x : Seeder} (h : ¬ ∃ f, Misconfigured x f) :
    ∃ v n, x.resolution.1 = .ok v ∧ Logging.threshold? v.logLevel = some n := by
  cases hresolution : x.resolution.1 with
  | error f => exact absurd ⟨f, misconfigured_of_unresolved hresolution⟩ h
  | ok v =>
      cases hlevel : Logging.threshold? v.logLevel with
      | none => exact absurd ⟨_, .level hresolution hlevel⟩ h
      | some n => exact ⟨v, n, rfl, hlevel⟩

section

variable {server : Server σ} {x : Seeder} {s : σ} {c : Clock}

theorem outcome_ofExcept (e : Except Failure α) :
    Action.outcome server (Action.ofJob (Job.ofExcept e)) x s c = ⟨(e, x), [], s, c⟩ := rfl

/-- A configuration with which something is wrong ends with that, before any call. -/
theorem outcome_configure_misconfigured {f : Failure} (h : Misconfigured x f) :
    Action.outcome server configure x s c =
      ⟨(.error f, x.remembering), x.resolution.2.map .record, s, c⟩ := by
  have hsettings : Action.outcome server getSettings x s c = _ := outcome_getSettings
  cases h with
  | unresolved hresolution =>
      rw [hresolution] at hsettings
      exact Action.outcome_bind_error _ hsettings
  | @level v hresolution hlevel =>
      rw [hresolution] at hsettings
      have hconfigure : Logging.unconfigured.configure (.text v.logLevel) =
          .error (Failure.of (.unknownLevel (.text v.logLevel))) := by
        simp only [Logging.configure, Logging.thresholdOf, hlevel, Except.map]
      rw [configure, Action.outcome_bind_ok _ hsettings, hconfigure]
      simp only [Action.outcome_bind_error _ (outcome_ofExcept _)]
      simp [Outcome.afterAll]

/-- A configuration that nothing is wrong with is taken over. -/
theorem outcome_configure_configured {v : Settings} {n : Nat} (hresolution : x.resolution.1 = .ok v)
    (hlevel : Logging.threshold? v.logLevel = some n) :
    Action.outcome server configure x s c =
      ⟨(.ok v, x.remembering), x.resolution.2.map .record ++
        [.configured (Logging.unconfigured.install n .stamped)], s, c⟩ := by
  have hsettings : Action.outcome server getSettings x s c = _ := outcome_getSettings
  rw [hresolution] at hsettings
  have hconfigure : Logging.unconfigured.configure (.text v.logLevel) =
      .ok (Logging.unconfigured.install n .stamped) := by
    simp only [Logging.configure, Logging.thresholdOf, hlevel, Except.map]
  rw [configure, Action.outcome_bind_ok _ hsettings, hconfigure]
  rfl

/-- The report on a configuration error. -/
def refusalOf (f : Failure) : LogRecord :=
  ⟨.error, logger, Text.join ["Configuration error: ", f.message]⟩

/-- **A process that is misconfigured** reports that, and ends without a call. -/
theorem outcome_cli_misconfigured (table : IndexTable) {f : Failure} (h : Misconfigured x f) :
    Action.outcome server (cli table) x s c =
      ⟨(.ok 1, x.remembering), x.resolution.2.map .record ++
        [.configured Logging.unconfigured.configureBriefly, .record (refusalOf f)], s, c⟩ := by
  have hconfigure : Action.outcome server configure x s c = _ := outcome_configure_misconfigured h
  have hunacceptable : f.problem.isUnacceptable = true := by
    cases h with
    | unresolved _ hunacceptable => exact hunacceptable
    | level _ _ => rfl
  have hattempt : Action.outcome server (Action.attempt configure) x s c = _ :=
    Action.outcome_attempt
  rw [hconfigure] at hattempt
  rw [cli, Action.outcome_bind_ok _ hattempt]
  simp only [hunacceptable, if_true]
  rfl

/-- What a process writes when it starts. -/
def openingOf (v : Settings) : List LogRecord :=
  [⟨.info, logger, rule⟩, ⟨.info, logger, "Appstore Seed Loader"⟩,
    ⟨.info, logger, Text.join ["Target database: ", v.databaseName]⟩, ⟨.info, logger, rule⟩]

/-- **A process that is configured** goes on as the program does. -/
theorem outcome_cli_configured (table : IndexTable) {v : Settings} {n : Nat}
    (hresolution : x.resolution.1 = .ok v) (hlevel : Logging.threshold? v.logLevel = some n) :
    Action.outcome server (cli table) x s c =
      (Action.outcome server (exitStatus table) x.remembering s c).afterAll
        (x.resolution.2.map .record ++
          .configured (Logging.unconfigured.install n .stamped) :: (openingOf v).map .record) := by
  have hconfigure : Action.outcome server configure x s c = _ :=
    outcome_configure_configured hresolution hlevel
  have hattempt : Action.outcome server (Action.attempt configure) x s c = _ :=
    Action.outcome_attempt
  rw [hconfigure] at hattempt
  rw [cli, Action.outcome_bind_ok _ hattempt]
  simp only [write, Action.outcome_bind_ok _ (Action.outcome_writeAll _)]
  simp [Outcome.afterAll, openingOf]

/-! ## How a process ends -/

/-- The program tells of its run from every seeder. -/
theorem exitStatus_tells (table : IndexTable)
    (hserver : ∀ q s f t, server.answer q s = (.error f, t) → f.Reportable) :
    Tells server (Succeeds server table x s c) (Action.outcome server (run table) x s c)
      (Action.outcome server (exitStatus table) x s c) := by
  obtain ⟨hreportable, hmild, -⟩ := run_leaves (x := x) (s := s) (c := c) table hserver
  have htells := tells_conclude server hmild (close_not_mem_run table)
  rwa [← outcome_exitStatus table hreportable, run_ok_iff table] at htells

end

/-- How a process ends that starts from a seeder, in a state of the server and by a
clock. -/
structure Gated (server : Server σ) (table : IndexTable) (x : Seeder) (s : σ) (c : Clock) :
    Prop where
  /-- A process ends with status 0 or 1, unless its client cannot be closed. -/
  ends :
    let b := Action.outcome server (run table) x.remembering s c
    let o := Action.outcome server (cli table) x s c
    o.result.1 = .ok 0 ∨ o.result.1 = .ok 1 ∨
      b.result.2.client.isSome = true ∧ ∃ f t, server.answer .close b.state = (.error f, t) ∧
        o.result.1 = .error f
  /-- A misconfigured process ends with status 1, without a client and without a call,
  and its only record is the report on that. -/
  refused : ∀ f, Misconfigured x f →
    let o := Action.outcome server (cli table) x s c
    o.result.1 = .ok 1 ∧ o.result.2.client = none ∧ Event.calls o.events = [] ∧ o.state = s ∧
      (Event.records o.events).filter (fun r => r.logger = logger) = [refusalOf f]
  /-- Any other comes to what the program comes to, -/
  started : (¬ ∃ f, Misconfigured x f) →
    let o := Action.outcome server (cli table) x s c
    let e := Action.outcome server (exitStatus table) x.remembering s c
    o.result = e.result ∧ Event.calls o.events = Event.calls e.events ∧ o.state = e.state
  /-- which is status 0 if sign of life, seed and reading back succeeded, and else
  status 1, provided that the client can be closed. -/
  status : (¬ ∃ f, Misconfigured x f) →
    Closes server (Action.outcome server (run table) x.remembering s c) →
      let o := Action.outcome server (cli table) x s c
      o.result.1 = .ok 0 ∧ Succeeds server table x.remembering s c ∨
        o.result.1 = .ok 1 ∧ ¬ Succeeds server table x.remembering s c
  /-- If it cannot be, the failure to close it ends the process. -/
  stuck : (¬ ∃ f, Misconfigured x f) →
    let b := Action.outcome server (run table) x.remembering s c
    ∀ f t, b.result.2.client.isSome → server.answer .close b.state = (.error f, t) →
      (Action.outcome server (cli table) x s c).result.1 = .error f

section

variable {server : Server σ} {x y : Seeder} {s : σ} {c : Clock}

/-- What a process that is configured comes to. -/
theorem cli_started (server : Server σ) (table : IndexTable) (h : ¬ ∃ f, Misconfigured x f)
    (s : σ) (c : Clock) :
    let o := Action.outcome server (cli table) x s c
    let e := Action.outcome server (exitStatus table) x.remembering s c
    o.result = e.result ∧ Event.calls o.events = Event.calls e.events ∧ o.state = e.state := by
  obtain ⟨v, n, hresolution, hlevel⟩ := settings_of_configured h
  rw [outcome_cli_configured table hresolution hlevel]
  refine ⟨rfl, ?_, rfl⟩
  simp [Outcome.afterAll]

/-- A client that a run left can be closed, or closing it is refused. -/
theorem closes_or_refused (server : Server σ)
    (b : Outcome σ (Except Failure Seeding.Summary × Seeder)) :
    Closes server b ∨ b.result.2.client.isSome = true ∧
      ∃ f t, server.answer .close b.state = (.error f, t) := by
  cases hclient : b.result.2.client with
  | none => exact Or.inl (Or.inl hclient)
  | some uri =>
      rcases hanswer : server.answer .close b.state with ⟨f | a, t⟩
      · exact Or.inr ⟨rfl, f, t, rfl⟩
      · exact Or.inl (Or.inr ⟨t, hanswer⟩)

theorem cli_status (table : IndexTable)
    (hserver : ∀ q s f t, server.answer q s = (.error f, t) → f.Reportable)
    (h : ¬ ∃ f, Misconfigured x f)
    (hcloses : Closes server (Action.outcome server (run table) x.remembering s c)) :
    let o := Action.outcome server (cli table) x s c
    o.result.1 = .ok 0 ∧ Succeeds server table x.remembering s c ∨
      o.result.1 = .ok 1 ∧ ¬ Succeeds server table x.remembering s c := by
  intro o
  obtain ⟨hresult, -⟩ := cli_started server table h s c
  obtain ⟨-, hzero, hone⟩ := (exitStatus_tells table hserver).status hcloses
  rw [show o.result = _ from hresult]
  by_cases hsucceeds : Succeeds server table x.remembering s c
  · exact Or.inl ⟨hzero hsucceeds, hsucceeds⟩
  · exact Or.inr ⟨hone hsucceeds, hsucceeds⟩

theorem cli_stuck (table : IndexTable)
    (hserver : ∀ q s f t, server.answer q s = (.error f, t) → f.Reportable)
    (h : ¬ ∃ f, Misconfigured x f) {f : Failure} {t : σ} :
    let b := Action.outcome server (run table) x.remembering s c
    b.result.2.client.isSome → server.answer .close b.state = (.error f, t) →
      (Action.outcome server (cli table) x s c).result.1 = .error f := by
  intro b hsome hanswer
  obtain ⟨hresult, -⟩ := cli_started server table h s c
  rw [hresult, (exitStatus_tells table hserver).stuck f t hsome hanswer]

theorem gated (table : IndexTable)
    (hserver : ∀ q s f t, server.answer q s = (.error f, t) → f.Reportable)
    (hclient : x.client = none) : Gated server table x s c where
  ends := by
    intro b o
    by_cases h : ∃ f, Misconfigured x f
    · obtain ⟨f, hf⟩ := h
      rw [show o = _ from outcome_cli_misconfigured table hf]
      exact Or.inr (Or.inl rfl)
    · obtain hcloses | ⟨hsome, f, t, hanswer⟩ := closes_or_refused server b
      · exact (cli_status table hserver h hcloses).imp And.left fun hone => Or.inl hone.1
      · exact Or.inr (Or.inr ⟨hsome, f, t, hanswer, cli_stuck table hserver h hsome hanswer⟩)
  refused := by
    intro f hf
    rw [outcome_cli_misconfigured table hf]
    refine ⟨rfl, by rw [client_remembering, hclient], ?_, rfl, ?_⟩
    · simp
    · have hfile : x.resolution.2.filter (fun r => r.logger = logger) = [] := by
        rw [List.filter_eq_nil_iff]
        intro r hr
        obtain ⟨line, rfl⟩ := x.resolution_fails.2 r hr
        show ¬ decide (Settings.fileLogger = logger) = true
        decide
      simp only [Event.records_append, Event.records_map_record, Event.records_cons_configured,
        Event.records_cons_record, Event.records_nil, List.filter_append, hfile]
      rfl
  started := fun h => cli_started server table h s c
  status := cli_status table hserver
  stuck := fun h _ _ => cli_stuck table hserver h

/-- The creation of the database user is one of the calls of a run. -/
theorem createUser_mem_plan (table : IndexTable) {v : Settings}
    (htarget : x.target = .ok v) :
    .ok (.createUser v.databaseName (.text v.userName) (.text v.userPassword)
      v.principal.grants) ∈ x.plan table := by
  simp [plan, htarget, loadingCalls, seedCalls, Seeding.course, Seeding.creation,
    Settings.principal]

/-- A run that succeeds has the creation of its database user accepted. -/
theorem accepts_of_run {table : IndexTable} {v : Settings} {summary : Seeding.Summary}
    (hresolution : x.resolution.1 = .ok v)
    (h : (Action.outcome server (run table) x s c).result.1 = .ok summary) :
    ∃ accepted, Accepts server s accepted (Action.outcome server (run table) x s c).state ∧
      .createUser v.databaseName (.text v.userName) (.text v.userPassword)
        v.principal.grants ∈ accepted := by
  have halong : Along server s (x.plan table) (Action.outcome server (run table) x s c) :=
    run_along table
  obtain ⟨-, w, htarget, -⟩ := (run_ok_iff table).mp ⟨summary, h⟩
  cases (resolution_of_target htarget).symm.trans hresolution
  obtain ⟨accepted, rest, t, hplan, haccepts, ⟨-, rfl, -, hstate⟩ | ⟨⟨f, hf⟩, -⟩⟩ := halong
  · have hmem := createUser_mem_plan table htarget
    rw [hplan, List.append_nil, List.mem_map] at hmem
    obtain ⟨q, hq, hcreate⟩ := hmem
    cases hcreate
    exact ⟨accepted, hstate ▸ haccepts, hq⟩
  · rw [h] at hf
    cases hf

/-- An exit status is the one for the result of the run. -/
theorem status_of_conclude {result : Except Failure α} {n : Nat}
    (h : (Action.outcome server (conclude result) x s c).result.1 = .ok n) :
    n = statusOf result := by
  cases hclient : x.client with
  | none =>
      rw [outcome_conclude_none result hclient] at h
      cases h
      rfl
  | some uri =>
      rcases hanswer : server.answer .close s with ⟨answer, t⟩
      rw [outcome_conclude_some result hclient hanswer] at h
      cases answer with
      | error f => cases h
      | ok a =>
          cases h
          rfl

/-- **A process that ends with status 0** has resolved its settings and run with success,
and did nothing after that but conclude. -/
theorem run_of_cli_zero {table : IndexTable}
    (hserver : ∀ q s f t, server.answer q s = (.error f, t) → f.Reportable)
    (h : (Action.outcome server (cli table) x s c).result.1 = .ok 0) :
    let b := Action.outcome server (run table) x.remembering s c
    (∃ v, x.resolution.1 = .ok v) ∧ (∃ summary, b.result.1 = .ok summary) ∧
      (Action.outcome server (cli table) x s c).state =
        (Action.outcome server (conclude b.result.1) b.result.2 b.state b.clock).state := by
  intro b
  have hconfigured : ¬ ∃ f, Misconfigured x f := by
    rintro ⟨f, hf⟩
    rw [outcome_cli_misconfigured table hf] at h
    cases h
  obtain ⟨v, n, hresolution, -⟩ := settings_of_configured hconfigured
  obtain ⟨hresult, -, hstate⟩ := cli_started server table hconfigured s c
  obtain ⟨hreportable, -⟩ := run_leaves (x := x.remembering) (s := s) (c := c) table hserver
  have hexit := outcome_exitStatus table hreportable
  rw [hresult, hexit] at h
  have hstatus : 0 = statusOf b.result.1 := status_of_conclude h
  refine ⟨⟨v, hresolution⟩, ?_, ?_⟩
  · cases hb : b.result.1 with
    | ok summary => exact ⟨summary, rfl⟩
    | error f =>
        rw [hb] at hstatus
        cases hstatus
  · rw [hstate, hexit]
    rfl

/-- **Of two processes with the same settings**, one after the other, not both end with
status 0. -/
theorem not_both_zero {known : Text → Text → σ → Prop} (remembers : Remembers server known)
    (table : IndexTable) (hserver : ∀ q s f t, server.answer q s = (.error f, t) → f.Reportable)
    (hsame : x.resolution.1 = y.resolution.1) (d : Clock) :
    let first := Action.outcome server (cli table) x s c
    let second := Action.outcome server (cli table) y first.state d
    ¬ (first.result.1 = .ok 0 ∧ second.result.1 = .ok 0) := by
  rintro first second ⟨hfirst, hsecond⟩
  have hkept : ∀ {z : Seeder} {v : Settings}, z.resolution.1 = .ok v →
      z.remembering.resolution.1 = .ok v := fun h =>
    congrArg Prod.fst (resolution_of_settings (settings_remembering h))
  obtain ⟨⟨v, hv⟩, ⟨summary, hsummary⟩, hstate⟩ := run_of_cli_zero hserver hfirst
  obtain ⟨-, ⟨summary', hsummary'⟩, -⟩ := run_of_cli_zero hserver hsecond
  obtain ⟨accepted, haccepts, hmem⟩ := accepts_of_run (hkept hv) hsummary
  obtain ⟨accepted', haccepts', hmem'⟩ := accepts_of_run (hkept (hsame ▸ hv)) hsummary'
  -- The first process made the name known, and nothing since has changed that.
  have hknown : known v.databaseName v.userName first.state := by
    rw [show first.state = _ from hstate]
    exact remembers.known_run _ _ (remembers.known_of_mem haccepts hmem)
  exact remembers.not_mem_of_known haccepts' hknown hmem'

end

/-- **The configuration gate.**  Against every server whose failures can be reported, a
process that starts with nothing but its environment and its file ends as `Gated`
says, whatever names its client refuses for a database; and where the server remembers
database users, a second process with the same settings does not succeed after a first
one that did. -/
theorem configuration_gate {server : Server σ}
    (hserver : ∀ q s f t, server.answer q s = (.error f, t) → f.Reportable) (table : IndexTable) :
    (∀ environment file names s c,
      Gated server table { environment, file, nameRefusal? := names } s c) ∧
      ∀ known, Remembers server known → ∀ x y : Seeder, x.resolution.1 = y.resolution.1 →
        ∀ s c d,
          let first := Action.outcome server (cli table) x s c
          let second := Action.outcome server (cli table) y first.state d
          ¬ (first.result.1 = .ok 0 ∧ second.result.1 = .ok 0) :=
  ⟨fun _ _ _ _ _ => gated table hserver rfl, fun _ remembers _ _ hsame _ _ d =>
    not_both_zero remembers table hserver hsame d⟩

/-- With a log level that is none the store stays empty; without it a first process
loads the store, and a second one does not. -/
theorem configuration_gate_store :
    let cliOf := fun x s => Action.outcome Store.server (cli Layout.declaredIndexes) x s []
    let loud := cliOf { environment := [("LOG_LEVEL", "loud")] } .empty
    let first := cliOf {} .empty
    loud.result.1 = .ok 1 ∧ Event.calls loud.events = [] ∧ loud.state = .empty ∧
      first.result.1 = .ok 0 ∧ (cliOf {} first.state).result.1 ≠ .ok 0 := by
  intro cliOf loud first
  obtain ⟨hgated, hsecond⟩ := configuration_gate
    (fun _ _ _ _ h => Store.reportable_of_answer h) Layout.declaredIndexes
  have hlevel : ∃ v, Seeder.resolution { environment := [("LOG_LEVEL", "loud")] } = (.ok v, []) ∧
      Logging.threshold? v.logLevel = none := by
    refine ⟨{ Settings.of SettingName.default with logLevel := "loud" }, ?_, by decide +kernel⟩
    exact Prod.ext (ok_of_toOption (by decide +kernel)) rfl
  obtain ⟨v, hv, hnone⟩ := hlevel
  obtain ⟨hone, -, hcalls, hstate, -⟩ :=
    (hgated [("LOG_LEVEL", "loud")] none (fun _ => none) .empty []).refused _
      (.level (congrArg Prod.fst hv) hnone)
  have hzero : first.result.1.toOption = some 0 := by decide +kernel
  refine ⟨hone, hcalls, hstate, ok_of_toOption hzero, fun h => ?_⟩
  exact hsecond _ Store.keepsUsers.remembers {} {} rfl .empty [] [] ⟨ok_of_toOption hzero, h⟩

/-- A load succeeds, but its client cannot be closed: the failure to close it leaves the
process, which has no exit status. -/
theorem refused_close_leaves_process :
    let s : List Disturbance × Store :=
      ([⟨.close, 0, Failure.of (.troubled .runtime "Event loop is closed")⟩], .empty)
    let o := Action.outcome (Disturbance.server Store.server) (cli Layout.declaredIndexes) {} s []
    ∃ f : Failure, f.Reportable ∧ o.result.1 = .error f := by
  intro s o
  have hfailed : (match o.result.1 with
      | .error f => !f.problem.isCancellation
      | .ok _ => false) = true := by decide +kernel
  cases hresult : o.result.1 with
  | ok status =>
      rw [hresult] at hfailed
      cases hfailed
  | error f =>
      rw [hresult] at hfailed
      exact ⟨f, by simpa [Failure.Reportable] using hfailed, rfl⟩

end Seeder

end InitialLoad
