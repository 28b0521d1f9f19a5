import InitialLoad.Proofs.ConfigurationGate
import Mathlib.Tactic.Choose

/-!
# The log level only filters the log

The log level is the one setting that a process uses before it does anything, to
configure the log, and never again.  `Action.IgnoresLogLevel` says of an action that
it is one and the same procedure on the client, whatever the log level in the
settings is, and that it leaves the configuration of the log alone.  Every part of the
program is such an action.

So two processes whose settings differ in the log level do the same and record the
same.  What each of them puts into the log, `Event.logged`, is a sublist of the records
that depends on the threshold only, and the higher threshold filters what the lower
one lets through.
-/

namespace InitialLoad

variable {σ α β : Type}

/-! ## What is in the log -/

/-- The lines of a record in a configured log, at the time `stamp`. -/
def LogRecord.stampedLines (stamp : Text) (r : LogRecord) : List Text :=
  (Text.join [stamp, " | ", r.level.name, " | ", r.message]).lines

namespace Event

/-- The records that enter the log of a process once a handler is installed: those
that pass the threshold of that time. -/
def logged : Logging → List Event → List LogRecord
  | _, [] => []
  | log, .record r :: rest =>
    if log.layout.isSome && log.admits r then r :: logged log rest else logged log rest
  | _, .configured log :: rest => logged log rest
  | log, .call _ :: rest => logged log rest

/-- The event does not configure the log. -/
def KeepsLog : Event → Prop
  | .configured _ => False
  | _ => True

/-- Nothing enters a log that is not configured. -/
theorem logged_unconfigured (records : List LogRecord) (rest : List Event) :
    logged .unconfigured (records.map .record ++ rest) = logged .unconfigured rest := by
  induction records with
  | nil => rfl
  | cons r records ih => exact ih

/-- What enters a log that stays configured is filtered by its threshold. -/
theorem logged_configured {events : List Event} (h : ∀ e ∈ events, e.KeepsLog) (n : Nat)
    (layout : LineLayout) :
    logged ⟨n, some layout⟩ events =
      (records events).filter fun r => decide (n ≤ r.level.number) := by
  induction events with
  | nil => rfl
  | cons e rest ih =>
      have hrest := ih fun e he => h e (List.mem_cons_of_mem _ he)
      cases e with
      | call q => exact hrest
      | configured log => exact (h _ List.mem_cons_self).elim
      | record r =>
          rw [records_cons_record, List.filter_cons, ← hrest]
          rfl

theorem written_append_configured (stamp : Text) (log new : Logging) (before after : List Event) :
    written stamp log (before ++ .configured new :: after) =
      written stamp log before ++ written stamp new after := by
  induction before generalizing log with
  | nil => rfl
  | cons e rest ih =>
      cases e with
      | call q => exact ih log
      | configured other => exact ih other
      | record r =>
          show log.lines stamp r ++ written stamp log (rest ++ .configured new :: after) = _
          rw [ih log, ← List.append_assoc]
          rfl

/-- A record puts its own lines into a configured log, whatever the threshold is. -/
theorem written_configured (stamp : Text) {events : List Event} (h : ∀ e ∈ events, e.KeepsLog)
    (n : Nat) :
    written stamp ⟨n, some .stamped⟩ events =
      (logged ⟨n, some .stamped⟩ events).flatMap (LogRecord.stampedLines stamp) := by
  induction events with
  | nil => rfl
  | cons e rest ih =>
      have hrest := ih fun e he => h e (List.mem_cons_of_mem _ he)
      cases e with
      | call q => exact hrest
      | configured log => exact (h _ List.mem_cons_self).elim
      | record r =>
          by_cases hadmits : (Logging.mk n (some .stamped)).admits r = true
          · simp only [written, logged, Logging.lines, Logging.entry?, hadmits, hrest,
              LogRecord.stampedLines, Option.isSome_some, Bool.and_self, if_true, List.flatMap_cons]
          · simp only [written, logged, Logging.lines, hadmits, hrest, Bool.and_false,
              Bool.false_eq_true, if_false, List.nil_append]

end Event

/-! ## Procedures that leave the configuration of the log alone -/

namespace Procedure

/-- The procedure never configures the log. -/
def KeepsLog : Procedure α → Prop
  | .done _ => True
  | .call _ next => ∀ answer, KeepsLog (next answer)
  | .record _ next => KeepsLog next
  | .configure _ _ => False
  | .clock next => ∀ t, KeepsLog (next t)

namespace KeepsLog

theorem bind {p : Procedure α} {f : α → Procedure β} (hp : p.KeepsLog) (hf : ∀ a, (f a).KeepsLog) :
    (p.bind f).KeepsLog := by
  induction p with
  | done a => exact hf a
  | call q next ih => exact fun answer => ih answer (hp answer)
  | record r next ih => exact ih hp
  | configure log next _ => exact hp.elim
  | clock next ih => exact fun t => ih t (hp t)

theorem writing {p : Procedure α} (records : List LogRecord) (hp : p.KeepsLog) :
    (Procedure.writing records p).KeepsLog := by
  induction records with
  | nil => exact hp
  | cons r rest ih => exact ih

theorem enact {next : Procedure (Except Failure α)} (hnext : next.KeepsLog)
    (course : List Stage) : (InitialLoad.enact next course).KeepsLog := by
  induction course with
  | nil => exact hnext
  | cons stage rest ih =>
      cases stage with
      | record r => exact ih
      | attempt request report =>
          cases request with
          | error f => trivial
          | ok q =>
              intro answer
              cases answer with
              | error f => trivial
              | ok a => exact ih

theorem run {p : Procedure α} (hp : p.KeepsLog) (server : Server σ) (s : σ) (c : Clock) :
    ∀ e ∈ (p.run server s c).events, e.KeepsLog := by
  induction p generalizing s c with
  | done a => exact fun e he => absurd he List.not_mem_nil
  | call q next ih =>
      intro e he
      rcases List.mem_cons.mp he with rfl | hlater
      · trivial
      · exact ih _ (hp _) _ c e hlater
  | record r next ih =>
      intro e he
      rcases List.mem_cons.mp he with rfl | hlater
      · trivial
      · exact ih hp s c e hlater
  | configure log next _ => exact hp.elim
  | clock next ih => exact ih _ (hp _) s _

end KeepsLog

end Procedure

namespace Action

/-! ## Actions that ignore the log level -/

/-- Where the settings are `v` but for the log level, and clients have `names` against
names, the action is one procedure on the client; it leaves everything else of the seeder,
and the log. -/
def IgnoresLogLevel (v : Settings) (names : Text → Option Text) (action : Action α) : Prop :=
  ∃ core : Option Text → Procedure (Except Failure α × Option Text),
    (∀ client, (core client).KeepsLog) ∧
      ∀ (x : Seeder) (level : Text), x.nameRefusal? = names →
        x.settings = some { v with logLevel := level } →
          action.run x = (core x.client).bind fun r => .done (r.1, { x with client := r.2 })

namespace IgnoresLogLevel

variable {v : Settings} {names : Text → Option Text}

theorem pure (a : α) : IgnoresLogLevel v names (Pure.pure a : Action α) :=
  ⟨fun client => .done (.ok a, client), fun _ => trivial, fun _ _ _ _ => rfl⟩

theorem fail (f : Failure) : IgnoresLogLevel v names (Action.fail f : Action α) :=
  ⟨fun client => .done (.error f, client), fun _ => trivial, fun _ _ _ _ => rfl⟩

theorem ofJob {job : Job α} (h : job.run.KeepsLog) :
    IgnoresLogLevel v names (Action.ofJob job) := by
  refine ⟨fun client => job.run.bind fun r => .done (r, client), ?_, ?_⟩
  · exact fun client => h.bind fun _ => trivial
  · intro x level _ hx
    rw [Procedure.bind_assoc]
    rfl

theorem writeAll (records : List LogRecord) :
    IgnoresLogLevel v names (Action.writeAll records) := by
  refine ⟨fun client => .writing records (.done (.ok (), client)), ?_, ?_⟩
  · exact fun client => .writing records trivial
  · intro x level _ hx
    rw [run_writeAll, Procedure.bind_writing]
    rfl

theorem bind {action : Action α} {f : α → Action β} (h : IgnoresLogLevel v names action)
    (hf : ∀ a, IgnoresLogLevel v names (f a)) : IgnoresLogLevel v names (action >>= f) := by
  obtain ⟨core, hkeeps, hcore⟩ := h
  choose next hnextKeeps hnext using hf
  let goOn : Except Failure α × Option Text → Procedure (Except Failure β × Option Text)
    | (.ok a, client) => next a client
    | (.error e, client) => .done (.error e, client)
  refine ⟨fun client => (core client).bind goOn, ?_, ?_⟩
  · intro client
    refine (hkeeps client).bind ?_
    rintro ⟨e | a, client'⟩
    · trivial
    · exact hnextKeeps a client'
  · intro x level hnames hx
    rw [run_bind, hcore x level hnames hx, Procedure.bind_assoc, Procedure.bind_assoc]
    congr 1
    funext r
    rcases r with ⟨e | a, client⟩
    · rfl
    · exact hnext a { x with client } level hnames hx

theorem attempt {action : Action α} (h : IgnoresLogLevel v names action) :
    IgnoresLogLevel v names (Action.attempt action) := by
  obtain ⟨core, hkeeps, hcore⟩ := h
  refine ⟨fun client => (core client).bind fun r => .done (.ok r.1, r.2), ?_, ?_⟩
  · exact fun client => (hkeeps client).bind fun _ => trivial
  · intro x level hnames hx
    show (action.run x).bind _ = _
    rw [hcore x level hnames hx, Procedure.bind_assoc, Procedure.bind_assoc]
    rfl

/-- An action that begins with the settings, and ignores the log level in them. -/
theorem settings {f : Settings → Action α} (hf : ∀ level, f { v with logLevel := level } = f v)
    (h : IgnoresLogLevel v names (f v)) : IgnoresLogLevel v names (Seeder.getSettings >>= f) := by
  obtain ⟨core, hkeeps, hcore⟩ := h
  refine ⟨core, hkeeps, ?_⟩
  intro x level hnames hx
  have hkept : x.remembering = x := by
    rcases x with ⟨environment, file, _, client, refusal⟩
    cases hx
    rfl
  rw [run_bind, Seeder.run_getSettings, Seeder.resolution_of_settings hx, hkept]
  show (f { v with logLevel := level }).run x = _
  rw [hf, hcore x level hnames hx]

/-- An action that is decided by the client. -/
theorem client {action : Action α} {f : Option Text → Action α}
    (hrun : ∀ x : Seeder, action.run x = (f x.client).run x)
    (h : ∀ client, IgnoresLogLevel v names (f client)) : IgnoresLogLevel v names action := by
  choose core hkeeps hcore using h
  refine ⟨fun client => core client client, fun client => hkeeps client client, ?_⟩
  intro x level hnames hx
  rw [hrun]
  exact hcore x.client x level hnames hx

/-- Opening a database by its name. -/
theorem named (name : Text) : IgnoresLogLevel v names
    (Action.state >>= fun x => Action.ofJob (Job.ofExcept (x.databaseNamed name))) := by
  let any : Seeder := { nameRefusal? := names }
  refine ⟨fun client => .done (any.databaseNamed name, client), fun _ => trivial, ?_⟩
  intro x level hnames hx
  rw [Seeder.databaseNamed_congr (x := x) hnames.symm name]
  rfl

/-- Setting the client. -/
theorem setClient (new : Option Text) :
    IgnoresLogLevel v names (Action.update fun x => { x with client := new }) :=
  ⟨fun _ => .done (.ok (), new), fun _ => trivial, fun _ _ _ _ => rfl⟩

end IgnoresLogLevel

/-- **From seeders whose settings differ in the log level** an action that ignores it
comes to the same. -/
theorem IgnoresLogLevel.outcome {v : Settings} {action : Action α} {x y : Seeder}
    {level level' : Text} (h : IgnoresLogLevel v x.nameRefusal? action)
    (hx : x.settings = some { v with logLevel := level })
    (hy : y.settings = some { v with logLevel := level' }) (hclient : x.client = y.client)
    (hnames : x.nameRefusal? = y.nameRefusal?)
    (server : Server σ) (s : σ) (c : Clock) :
    let o := Action.outcome server action x s c
    let o' := Action.outcome server action y s c
    o.result.1 = o'.result.1 ∧ o.events = o'.events ∧ o.state = o'.state ∧ o.clock = o'.clock ∧
      ∀ e ∈ o.events, e.KeepsLog := by
  obtain ⟨core, hkeeps, hcore⟩ := h
  intro o o'
  have ho : o = _ := congrArg (fun p => Procedure.run server p s c) (hcore x level rfl hx)
  have ho' : o' = _ := congrArg (fun p => Procedure.run server p s c)
    (hcore y level' hnames.symm hy)
  rw [← hclient] at ho'
  simp only [Procedure.run_bind, Procedure.run, Outcome.afterAll, List.append_nil] at ho ho'
  rw [ho, ho']
  exact ⟨rfl, rfl, rfl, rfl, (hkeeps x.client).run server s c⟩

end Action

namespace Seeder

/-! ## The program ignores the log level -/

section

variable (v : Settings) (names : Text → Option Text)

theorem getClient_ignoresLogLevel : Action.IgnoresLogLevel v names getClient := by
  let connect : Action Text := getSettings >>= fun settings => do
    Action.ofJob (Job.request (.connect settings.uri))
    Action.update fun s => { s with client := some settings.uri }
    return settings.uri
  refine .client (f := fun client => client.elim connect pure) ?_ ?_
  · intro x
    rcases x with ⟨environment, file, settings, uri | _, refusal⟩ <;> rfl
  · intro client
    cases client with
    | some uri => exact .pure uri
    | none =>
        refine .settings (fun _ => rfl) (.bind (.ofJob fun _ => trivial) fun _ => ?_)
        exact .bind (.setClient _) fun _ => .pure _

theorem closeClient_ignoresLogLevel : Action.IgnoresLogLevel v names closeClient := by
  let close : Action Unit := do
    Action.ofJob (Job.request .close)
    Action.update fun s => { s with client := none }
  refine .client (f := fun client => client.elim (pure ()) fun _ => close) ?_ ?_
  · intro x
    rcases x with ⟨environment, file, settings, uri | _, refusal⟩ <;> rfl
  · intro client
    cases client with
    | none => exact .pure ()
    | some uri => exact .bind (.ofJob fun _ => trivial) fun _ => .setClient none

theorem getDatabase_ignoresLogLevel : Action.IgnoresLogLevel v names (getDatabase none) :=
  .bind (getClient_ignoresLogLevel v names) fun _ =>
    .bind (.settings (fun _ => rfl) (.pure _)) fun chosen => .named chosen

theorem write_ignoresLogLevel (level : Level) (message : Text) :
    Action.IgnoresLogLevel v names (write level message) :=
  .writeAll _

theorem initialSeed_keepsLog (table : IndexTable) (database : Text) :
    (initialSeed table database v).run.KeepsLog := by
  rw [initialSeed, Seeding.seed_run]
  intro start
  refine .enact ?_ _
  exact fun finish => trivial

theorem verify_keepsLog (database : Text) : (Seeding.verify database).run.KeepsLog := by
  have hpresent : ∀ place, (Seeding.presentIds place).run.KeepsLog := by
    intro place answer
    cases answer <;> trivial
  refine (hpresent _).bind ?_
  rintro (f | apps)
  · trivial
  · refine (hpresent _).bind ?_
    rintro (f | users) <;> trivial

theorem run_ignoresLogLevel (table : IndexTable) : Action.IgnoresLogLevel v names (run table) := by
  have hping : Action.IgnoresLogLevel v names ping :=
    .bind (getClient_ignoresLogLevel v names) fun _ => .ofJob fun _ => trivial
  have hseed : ∀ database, Action.IgnoresLogLevel v names (seed table database none) := by
    intro database
    rw [seed_eq]
    exact .settings (fun _ => rfl) (.ofJob (initialSeed_keepsLog v table database))
  refine hping.bind fun _ => (write_ignoresLogLevel v names _ _).bind fun _ => ?_
  refine (getDatabase_ignoresLogLevel v names).bind fun database => ?_
  refine (hseed database).bind fun _ => ?_
  refine (write_ignoresLogLevel v names _ _).bind fun _ => ?_
  refine (Action.IgnoresLogLevel.ofJob (verify_keepsLog database)).bind fun _ => ?_
  exact (write_ignoresLogLevel v names _ _).bind fun _ => .pure _

theorem exitStatus_ignoresLogLevel (table : IndexTable) :
    Action.IgnoresLogLevel v names (exitStatus table) := by
  refine (run_ignoresLogLevel v names table).attempt.bind ?_
  intro result
  cases result with
  | ok summary => exact (closeClient_ignoresLogLevel v names).bind fun _ => .pure 0
  | error f =>
      simp only
      split
      · exact (closeClient_ignoresLogLevel v names).bind fun _ => .fail f
      · refine (write_ignoresLogLevel v names _ _).bind fun _ => ?_
        exact (closeClient_ignoresLogLevel v names).bind fun _ => .pure 1

end

/-! ## Two processes -/

/-- The events of a process that is configured: the reports on its file, the
configuration of its log, and what it does then, which does not configure the log. -/
theorem events_cli (server : Server σ) (v : Settings) (level : Text) (table : IndexTable)
    {x : Seeder} {n : Nat} (hx : x.resolution.1 = .ok { v with logLevel := level })
    (hn : Logging.threshold? level = some n) (s : σ) (c : Clock) :
    let e := Action.outcome server (exitStatus table) x.remembering s c
    let started := (openingOf v).map .record ++ e.events
    (Action.outcome server (cli table) x s c).events =
        x.resolution.2.map .record ++ .configured ⟨n, some .stamped⟩ :: started ∧
      ∀ e ∈ started, e.KeepsLog := by
  intro e started
  have hevents : (Action.outcome server (cli table) x s c).events = _ :=
    congrArg Outcome.events (outcome_cli_configured table hx hn)
  refine ⟨hevents.trans (by simp [started, e, Outcome.afterAll, openingOf, Logging.install,
    Logging.unconfigured]), ?_⟩
  obtain ⟨-, -, -, -, hkeeps⟩ := (exitStatus_ignoresLogLevel v _ table).outcome
    (settings_remembering hx) (settings_remembering hx) rfl rfl server s c
  intro e he
  rcases List.mem_append.mp he with hopening | hlater
  · obtain ⟨r, -, rfl⟩ := List.mem_map.mp hopening
    trivial
  · exact hkeeps e hlater

/-- **The log level only filters the log.**  Let the settings of two processes with the
same client, or none, differ only in the log level, both log levels being names of
thresholds, and let the second threshold be the higher one; clients refuse the same names
in both.  Against every server the processes make the same calls, leave the same state of
it and end in the same way; and what the second one puts into its log, once it is
configured, are the records of the first one that reach its threshold, each with the same
lines. -/
theorem logLevel_filters_log (server : Server σ) (table : IndexTable) {x y : Seeder} {v : Settings}
    {level : Text} {m n : Nat} (hclient : x.client = y.client)
    (hnames : x.nameRefusal? = y.nameRefusal?) (hx : x.resolution.1 = .ok v)
    (hy : y.resolution.1 = .ok { v with logLevel := level })
    (hm : Logging.threshold? v.logLevel = some m) (hn : Logging.threshold? level = some n)
    (hmn : m ≤ n) (s : σ) (c : Clock) :
    let o := Action.outcome server (cli table) x s c
    let o' := Action.outcome server (cli table) y s c
    Event.calls o.events = Event.calls o'.events ∧ o.state = o'.state ∧
      o.result.1 = o'.result.1 ∧
      Event.logged .unconfigured o'.events =
        (Event.logged .unconfigured o.events).filter (fun r => decide (n ≤ r.level.number)) ∧
      ∀ stamp,
        Event.written stamp .unconfigured o.events =
            Event.written stamp .unconfigured (x.resolution.2.map .record) ++
              (Event.logged .unconfigured o.events).flatMap (LogRecord.stampedLines stamp) ∧
          Event.written stamp .unconfigured o'.events =
            Event.written stamp .unconfigured (y.resolution.2.map .record) ++
              (Event.logged .unconfigured o'.events).flatMap (LogRecord.stampedLines stamp) := by
  intro o o'
  have hsettings : x.remembering.settings = some { v with logLevel := v.logLevel } :=
    settings_remembering hx
  have hclients : x.remembering.client = y.remembering.client := by
    rw [client_remembering, client_remembering, hclient]
  have hrefusals : x.remembering.nameRefusal? = y.remembering.nameRefusal? := by
    rw [nameRefusal_remembering, nameRefusal_remembering, hnames]
  -- After the configuration of the log the two processes do the same, so the events of
  -- both are told by one list.
  obtain ⟨hresult, hsame, hstate, -, -⟩ := (exitStatus_ignoresLogLevel v _ table).outcome
    hsettings (settings_remembering hy) hclients hrefusals server s c
  obtain ⟨hevents, hkeeps⟩ := events_cli server v v.logLevel table hx hm s c
  obtain ⟨hevents', hkeeps'⟩ := events_cli server v level table hy hn s c
  rw [← hsame] at hevents' hkeeps'
  have ho : o = _ := outcome_cli_configured table hx hm
  have ho' : o' = _ := outcome_cli_configured table hy hn
  refine ⟨?_, ?_, ?_, ?_, ?_⟩
  · rw [hevents, hevents']
    simp
  · rw [ho, ho']
    exact hstate
  · rw [ho, ho']
    exact hresult
  · rw [hevents, hevents', Event.logged_unconfigured, Event.logged_unconfigured]
    show Event.logged ⟨n, _⟩ _ = (Event.logged ⟨m, _⟩ _).filter _
    rw [Event.logged_configured hkeeps, Event.logged_configured hkeeps, List.filter_filter]
    refine List.filter_congr fun r _ => ?_
    simp only [← Bool.decide_and, decide_eq_decide]
    omega
  · intro stamp
    rw [hevents, hevents', Event.written_append_configured, Event.written_append_configured,
      Event.logged_unconfigured, Event.logged_unconfigured, Event.written_configured stamp hkeeps,
      Event.written_configured stamp hkeeps]
    exact ⟨rfl, rfl⟩

/-- Two processes on a store that is loaded already, one with the level in small letters:
both end with status 1, and of the seven records of the one, the other has the report on
the failure, which is the last of them. -/
theorem logLevel_filters_log_loaded :
    let cliOf := fun x s => Action.outcome Store.server (cli Layout.declaredIndexes) x s []
    let s := (cliOf {} .empty).state
    let o := cliOf {} s
    let o' := cliOf { environment := [("LOG_LEVEL", "error")] } s
    o.result.1 = .ok 1 ∧ o'.result.1 = .ok 1 ∧
      Event.logged .unconfigured o'.events =
        (Event.logged .unconfigured o.events).filter (fun r => decide (40 ≤ r.level.number)) ∧
      (Event.logged .unconfigured o.events).map LogRecord.level =
        [.info, .info, .info, .info, .info, .info, .error] ∧
      (Event.logged .unconfigured o'.events).map LogRecord.level = [.error] := by
  intro cliOf s o o'
  let v : Settings := .of SettingName.default
  have hx : Seeder.resolution {} = (.ok v, []) := Prod.ext (ok_of_toOption (by decide +kernel)) rfl
  have hy : Seeder.resolution { environment := [("LOG_LEVEL", "error")] } =
      (.ok { v with logLevel := "error" }, []) :=
    Prod.ext (ok_of_toOption (by decide +kernel)) rfl
  obtain ⟨-, -, hresult, hlogged, -⟩ := logLevel_filters_log Store.server Layout.declaredIndexes
    (x := {}) (y := { environment := [("LOG_LEVEL", "error")] }) rfl rfl (congrArg Prod.fst hx)
    (congrArg Prod.fst hy) (m := 20) (n := 40) (by decide +kernel) (by decide +kernel) (by decide)
    s []
  have hone : o.result.1.toOption = some 1 := by decide +kernel
  have hlevels : (Event.logged .unconfigured o.events).map LogRecord.level =
      [.info, .info, .info, .info, .info, .info, .error] := by decide +kernel
  refine ⟨ok_of_toOption hone, hresult ▸ ok_of_toOption hone, hlogged, hlevels, ?_⟩
  rw [show Event.logged .unconfigured o'.events = _ from hlogged]
  decide +kernel

end Seeder

end InitialLoad
