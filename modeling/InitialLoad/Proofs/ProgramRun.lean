import InitialLoad.Proofs.Connection
import InitialLoad.Proofs.Stores
import InitialLoad.Seeder.Program

/-!
# A run of the program

A run gets a client, asks for a sign of life, seeds with the initial data and
reads back.  `plan` lists its calls, which depend on the client and the settings
only, and `run_along` says that a run makes the first ones of them, up to the
first failure.  `run_ok_iff` says when it succeeds, by the parts of a run, and
`run_leaves` what it leaves: a failure that can be reported, no error on record,
and the client.
-/

namespace InitialLoad

variable {σ α : Type}

/-! ## What a course can report -/

/-- The stage writes an allowed record, or it fails admissibly when calls do. -/
def Stage.Mild (admissible : Failure → Prop) (allowed : LogRecord → Prop) : Stage → Prop
  | .record r => allowed r
  | .attempt (.error f) _ => admissible f
  | .attempt (.ok _) report => ∀ f, admissible f → admissible (report f)

/-- A course of mild stages fails admissibly and writes allowed records. -/
theorem always_enact {admissible : Failure → Prop} {allowed : LogRecord → Prop}
    {result : Except Failure α → Prop} {next : Procedure (Except Failure α)} {course : List Stage}
    (hnext : Procedure.Always admissible allowed result next)
    (hresult : ∀ f, admissible f → result (.error f))
    (hmild : ∀ stage ∈ course, stage.Mild admissible allowed) :
    Procedure.Always admissible allowed result (enact next course) := by
  induction course with
  | nil => exact hnext
  | cons stage rest ih =>
      have hstage := hmild stage List.mem_cons_self
      have hrest := ih fun stage h => hmild stage (List.mem_cons_of_mem _ h)
      cases stage with
      | record r => exact ⟨hstage, hrest⟩
      | attempt request report =>
          cases request with
          | error f => exact hresult f hstage
          | ok q => exact ⟨fun _ => hrest, fun f hf => hresult _ (hstage f hf)⟩

/-- A failure that the program reports: no cancellation. -/
def Failure.Reportable (f : Failure) : Prop := f.problem.isCancellation = false

/-- A record of a level other than error. -/
def LogRecord.Mild (r : LogRecord) : Prop := r.level ≠ .error

theorem LogRecord.mild_of_info {r : LogRecord} (h : r.level = .info) : r.Mild := by
  simp [Mild, h]

theorem LogRecord.mild_of_warning {r : LogRecord} (h : r.level = .warning) : r.Mild := by
  simp [Mild, h]

namespace Seeding

theorem mild_insertion {place : Place} {element : Value} {id : Int} {doc : Document}
    (h : Documented element id doc) :
    (insertion place element).Mild Failure.Reportable LogRecord.Mild := by
  rw [insertion_of_document h.toDocument]
  intro f hf
  unfold whenInsertRefused
  rw [h.member]
  split
  · rfl
  · exact hf

theorem mild_indexings (database : Text) (table : IndexTable) :
    ∀ stage ∈ indexings database table, stage.Mild Failure.Reportable LogRecord.Mild := by
  intro stage hstage
  simp only [indexings, List.mem_flatMap, List.mem_map] at hstage
  obtain ⟨entry, -, definition, -, rfl⟩ := hstage
  unfold indexing
  cases definition.get? "keys" with
  | none => rfl
  | some keys => exact fun f hf => hf

theorem mild_course (database : Text) (table : IndexTable) (p : DatabaseUser) (apps : List App)
    (users : List User) :
    ∀ stage ∈ course database table p (apps.map App.toValue) (users.map User.toValue),
      stage.Mild Failure.Reportable LogRecord.Mild := by
  have hcreation : (creation database p).Mild Failure.Reportable LogRecord.Mild := by
    intro f hf
    unfold whenUserRefused
    split
    · rfl
    · exact hf
  intro stage hstage
  simp only [course, List.mem_cons, List.mem_append, List.mem_map, List.not_mem_nil, or_false]
    at hstage
  rcases hstage with rfl | rfl | rfl | hindex | ⟨_, ⟨a, -, rfl⟩, rfl⟩ | rfl |
    ⟨_, ⟨u, -, rfl⟩, rfl⟩ | rfl
  · exact LogRecord.mild_of_info rfl
  · exact hcreation
  · exact LogRecord.mild_of_info rfl
  · exact mild_indexings database table stage hindex
  · exact mild_insertion (App.documented a)
  · exact LogRecord.mild_of_info rfl
  · exact mild_insertion (User.documented u)
  · exact LogRecord.mild_of_info rfl

/-- A seed of validated entities fails reportably and writes no error. -/
theorem seed_steady (database : Text) (table : IndexTable) (p : DatabaseUser) (apps : List App)
    (users : List User) :
    Job.Steady Failure.Reportable LogRecord.Mild
      (seed database table p.toValue (apps.map App.toValue) (users.map User.toValue)) := by
  unfold Job.Steady
  rw [seed_run]
  intro start
  refine always_enact (fun _ => nofun) ?_ (mild_course database table p apps users)
  intro f hf g hg
  cases hg
  exact hf

theorem idsOf_reportable {docs : List Document} {f : Failure} (h : idsOf docs = .error f) :
    f.Reportable := by
  induction docs with
  | nil => cases h
  | cons doc rest ih =>
      simp only [idsOf] at h
      split at h
      · cases h
        rfl
      · cases hrest : idsOf rest with
        | error g =>
            rw [hrest] at h
            cases h
            exact ih hrest
        | ok ids =>
            rw [hrest] at h
            cases h

theorem sortedIds_reportable {docs : List Document} {f : Failure} (h : sortedIds docs = .error f) :
    f.Reportable := by
  cases hids : idsOf docs with
  | error g =>
      simp only [sortedIds, hids, Bind.bind, Except.bind] at h
      cases h
      exact idsOf_reportable hids
  | ok ids =>
      cases hsorted : Value.sorted ids with
      | ok sorted =>
          simp only [sortedIds, hids, Bind.bind, Except.bind, hsorted] at h
          cases h
      | error pair =>
          simp only [sortedIds, hids, Bind.bind, Except.bind, hsorted] at h
          cases h
          rfl

/-- Reading back fails reportably and writes nothing. -/
theorem verify_steady (database : Text) :
    Job.Steady Failure.Reportable LogRecord.Mild (verify database) := by
  have hpresent : ∀ place, Job.Steady Failure.Reportable LogRecord.Mild (presentIds place) :=
    fun place => .bind (.request _) fun docs => .ofExcept fun f hf => sortedIds_reportable hf
  exact .bind (hpresent _) fun _ => .bind (hpresent _) fun _ => .pure _

end Seeding

namespace Seeder

/-! ## What always holds of a run -/

/-- Settings that cannot be resolved are reported, and the reports on the
environment file are warnings. -/
theorem resolution_mild (x : Seeder) :
    (∀ f, x.resolution.1 = .error f → f.Reportable) ∧ ∀ r ∈ x.resolution.2, r.level = .warning := by
  refine ⟨?_, ?_⟩
  · intro f hf
    obtain ⟨faults, rfl⟩ | ⟨fault, rfl⟩ := x.resolution_fails.1 f hf <;> rfl
  · intro r hr
    obtain ⟨line, rfl⟩ := x.resolution_fails.2 r hr
    rfl

section

variable {kept : Seeder → Prop}

theorem write_steady {level : Level} (h : level ≠ .error) (message : Text) :
    Action.Steady Failure.Reportable LogRecord.Mild kept (write level message) := by
  refine Action.Steady.writeAll ?_
  intro r hr
  rw [List.mem_singleton.mp hr]
  exact h

theorem getSettings_steady (hkept : ∀ x settings, kept x → kept { x with settings := settings }) :
    Action.Steady Failure.Reportable LogRecord.Mild kept getSettings := by
  intro x hx
  rw [run_getSettings]
  refine Procedure.always_writing ?_ ⟨x.resolution_mild.1, ?_⟩
  · exact fun r hr => LogRecord.mild_of_warning (x.resolution_mild.2 r hr)
  · show kept x.remembering
    unfold remembering
    split
    · exact hkept x _ hx
    · exact hx

end

/-- The seeder has this client. -/
def HasClient (uri : Text) (x : Seeder) : Prop := x.client = some uri

theorem getClient_steady (uri : Text) :
    Action.Steady Failure.Reportable LogRecord.Mild (HasClient uri) getClient := by
  intro x hx
  rw [run_getClient_some hx]
  exact ⟨nofun, hx⟩

theorem databaseNamed_reportable {x : Seeder} {name : Text} {f : Failure}
    (h : x.databaseNamed name = .error f) : f.Reportable := by
  unfold databaseNamed at h
  split at h <;> cases h
  rfl

theorem getDatabase_steady (uri : Text) :
    Action.Steady Failure.Reportable LogRecord.Mild (HasClient uri) (getDatabase none) :=
  .bind (getClient_steady uri) fun _ =>
    .bind (.bind (getSettings_steady fun _ _ h => h) fun _ => .pure _) fun _ =>
      .bind .state fun _ => .ofJob (.ofExcept fun _ => databaseNamed_reportable)

/-- The seed of the initial data, for the principal in the settings. -/
def initialSeed (table : IndexTable) (database : Text) (settings : Settings) :
    Job Seeding.Summary :=
  Seeding.seed database table settings.principal.toValue (Seeding.initialApps.map App.toValue)
    (Seeding.initialUsers.map User.toValue)

theorem seed_eq (table : IndexTable) (database : Text) :
    seed table database none =
      getSettings >>= fun settings => Action.ofJob (initialSeed table database settings) := by
  simp only [seed, appPrincipal, bind_map_left, bind_assoc, pure_bind]
  rfl

theorem initialSeed_steady (table : IndexTable) (database : Text) (settings : Settings) :
    Job.Steady Failure.Reportable LogRecord.Mild (initialSeed table database settings) :=
  Seeding.seed_steady _ _ _ _ _

theorem seed_steady (table : IndexTable) (database : Text) (uri : Text) :
    Action.Steady Failure.Reportable LogRecord.Mild (HasClient uri) (seed table database none) := by
  rw [seed_eq]
  exact .bind (getSettings_steady fun _ _ h => h) fun settings =>
    .ofJob (initialSeed_steady table database settings)

/-- What a run does after the sign of life. -/
def load (table : IndexTable) : Action Seeding.Summary := do
  write .info "Connected to MongoDB"
  let database ← getDatabase none
  let summary ← seed table database none
  write .info (completion summary)
  let present ← Action.ofJob (Seeding.verify database)
  write .info (inventory present)
  return summary

theorem run_eq (table : IndexTable) : run table = ping >>= fun _ => load table := rfl

/-- A run with its client first. -/
theorem run_eq_getClient (table : IndexTable) :
    run table =
      getClient >>= fun _ => Action.ofJob (Job.request .ping) >>= fun _ => load table := by
  rw [run_eq, ping, bind_assoc]

theorem load_steady (table : IndexTable) (uri : Text) :
    Action.Steady Failure.Reportable LogRecord.Mild (HasClient uri) (load table) :=
  .bind (write_steady (by decide) _) fun _ => .bind (getDatabase_steady uri) fun database =>
    .bind (seed_steady table database uri) fun _ => .bind (write_steady (by decide) _) fun _ =>
      .bind (.ofJob (Seeding.verify_steady database)) fun _ =>
        .bind (write_steady (by decide) _) fun _ => .pure _

/-! ## The calls of a run -/

/-- The call that gets a client, if there is none. -/
def connection (x : Seeder) : List (Except Failure Request) :=
  match x.client with
  | some _ => []
  | none => [x.resolution.1.map fun settings => .connect settings.uri]

/-- The calls of the seed. -/
def seedCalls (table : IndexTable) (settings : Settings) : List (Except Failure Request) :=
  Stage.requests (Seeding.course settings.databaseName table settings.principal
    (Seeding.initialApps.map App.toValue) (Seeding.initialUsers.map User.toValue))

/-- The calls of the seed and those that read back. -/
def loadingCalls (table : IndexTable) (settings : Settings) : List (Except Failure Request) :=
  seedCalls table settings ++ [.ok (.findIds (Seeding.appsOf settings.databaseName)),
    .ok (.findIds (Seeding.usersOf settings.databaseName))]

/-- The calls of a run: a client, a sign of life, the seed, the identifiers. -/
def plan (table : IndexTable) (x : Seeder) : List (Except Failure Request) :=
  x.connection ++ .ok .ping ::
    match x.target with
    | .error f => [.error f]
    | .ok settings => loadingCalls table settings

section

variable {server : Server σ} {x : Seeder} {s : σ} {c : Clock}

theorem getClient_along : Along server s x.connection (Action.outcome server getClient x s c) := by
  unfold connection
  cases hclient : x.client with
  | some uri =>
      rw [outcome_getClient_some hclient]
      exact .quiet rfl
  | none =>
      cases hresolution : x.resolution.1 with
      | error f =>
          rw [outcome_getClient_unsettled hclient hresolution]
          exact .stuck (Event.calls_map_record _) _
      | ok settings =>
          rcases hanswer : server.answer (.connect settings.uri) s with ⟨answer, u⟩
          rw [outcome_getClient_settled hclient hresolution hanswer]
          cases answer with
          | error f =>
              exact ⟨[], [.ok (.connect settings.uri)], s, rfl, .nil s,
                Or.inr ⟨⟨f, rfl⟩, Or.inr ⟨_, f, [], rfl, hanswer, by simp⟩⟩⟩
          | ok a =>
              exact ⟨[.connect settings.uri], [], u, rfl, .cons hanswer (.nil u),
                Or.inl ⟨⟨_, rfl⟩, rfl, by simp, rfl⟩⟩

/-- A seed goes along its course. -/
theorem initialSeed_along (table : IndexTable) (settings : Settings) :
    Along server s (seedCalls table settings) (Action.outcome server
      (Action.ofJob (initialSeed table settings.databaseName settings)) x s c) := by
  let course := Seeding.course settings.databaseName table settings.principal
    (Seeding.initialApps.map App.toValue) (Seeding.initialUsers.map User.toValue)
  obtain ⟨hresult, hevents, hstate⟩ := Seeding.seed_outcome server settings.databaseName table
    settings.principal (Seeding.initialApps.map App.toValue)
    (Seeding.initialUsers.map User.toValue) s c
  obtain ⟨accepted, rest, t, hplan, haccepts, -, hend⟩ := perform_cases server course s
  rw [Action.outcome_ofJob]
  unfold initialSeed
  refine ⟨accepted, rest, t, hplan, haccepts, ?_⟩
  simp only [hresult, hevents, hstate]
  rcases hend with ⟨hrest, hnone, hcalls, ht⟩ | ⟨f, later, hrest, hf, hcalls, ht⟩ |
    ⟨q, f, u, later, hrest, hanswer, ⟨g, hg⟩, hcalls, hu⟩
  · rw [hnone]
    exact Or.inl ⟨⟨_, rfl⟩, hrest, hcalls, ht⟩
  · rw [hf]
    exact Or.inr ⟨⟨_, rfl⟩, Or.inl ⟨hcalls, ht⟩⟩
  · rw [hg]
    exact Or.inr ⟨⟨_, rfl⟩, Or.inr ⟨q, f, later, hrest, hu ▸ hanswer, hcalls⟩⟩

/-- The seed is for the principal in the settings that the seeder keeps. -/
theorem outcome_seed (table : IndexTable) (database : Text) {settings : Settings}
    (h : x.settings = some settings) :
    Action.outcome server (seed table database none) x s c =
      Action.outcome server (Action.ofJob (initialSeed table database settings)) x.remembering s
        c := by
  have hsettings : Action.outcome server getSettings x s c =
      ⟨(.ok settings, x.remembering), [], s, c⟩ := by
    rw [outcome_getSettings, resolution_of_settings h]
    rfl
  rw [seed_eq, Action.outcome_bind_ok _ hsettings]
  rfl

/-- Reading back asks for the apps and then for the users. -/
theorem verify_along (database : Text) :
    Along server s [.ok (.findIds (Seeding.appsOf database)),
        .ok (.findIds (Seeding.usersOf database))]
      (Action.outcome server (Action.ofJob (Seeding.verify database)) x s c) := by
  have hpresent : ∀ place (y : Seeder) (t : σ) (d : Clock), Along server t [.ok (.findIds place)]
      (Action.outcome server (Action.ofJob (Seeding.presentIds place)) y t d) := by
    intro place y t d
    rw [Seeding.presentIds, Action.ofJob_bind]
    refine Along.bind (Along.request _) ?_
    intro docs z events u e hdocs
    have hsorted : Action.outcome server (Action.ofJob (Job.ofExcept (Seeding.sortedIds docs))) z u
        e = ⟨(Seeding.sortedIds docs, z), [], u, e⟩ := rfl
    rw [hsorted]
    cases Seeding.sortedIds docs with
    | error f => exact .stuck rfl _
    | ok ids => exact .quiet rfl
  rw [Seeding.verify, Action.ofJob_bind]
  refine Along.bind (hpresent _ _ _ _) ?_
  intro apps y events t d happs
  rw [Action.ofJob_bind]
  refine Along.bind (hpresent _ _ _ _) ?_
  intro users z events u e husers
  exact .quiet rfl

theorem write_along (level : Level) (message : Text) :
    Along server s [] (Action.outcome server (write level message) x s c) := by
  rw [write, Action.outcome_writeAll]
  exact .quiet rfl

/-- What follows the sign of life goes along the seed and reads back. -/
theorem load_along (table : IndexTable) {uri : Text} (hclient : x.client = some uri) :
    Along server s (match x.target with
        | .error f => [.error f]
        | .ok settings => loadingCalls table settings)
      (Action.outcome server (load table) x s c) := by
  refine Along.bind_quiet (write_along _ _) ?_
  intro _ y events t d hwrite
  rw [write, Action.outcome_writeAll] at hwrite
  cases hwrite
  have hdatabase : Action.outcome server (getDatabase none) x s c = _ :=
    outcome_getDatabase hclient
  cases htarget : x.target with
  | error f =>
      rw [htarget] at hdatabase
      rw [Action.outcome_bind_error _ hdatabase]
      exact .stuck (Event.calls_map_record _) _
  | ok settings =>
      rw [htarget] at hdatabase
      have hquiet : Along server s [] (Action.outcome server (getDatabase none) x s c) := by
        rw [hdatabase]
        exact .quiet (Event.calls_map_record _)
      refine Along.bind_quiet hquiet ?_
      intro database y events t d hy
      rw [hdatabase] at hy
      cases hy
      -- From here on the settings are kept, so the seed is for their principal.
      have hseed : Along server s (seedCalls table settings) (Action.outcome server
          (seed table settings.databaseName none) x.remembering s c) := by
        rw [outcome_seed _ _ (settings_remembering (resolution_of_target htarget))]
        exact initialSeed_along table settings
      refine Along.bind hseed ?_
      intro summary z events u e _
      refine Along.bind_quiet (write_along _ _) ?_
      intro _ z' events' u' e' hwritten
      rw [write, Action.outcome_writeAll] at hwritten
      cases hwritten
      refine Along.quiet_after (verify_along _) ?_
      intro present z' t d
      refine Along.bind_quiet (write_along _ _) ?_
      intro _ z'' events' u' e' _
      exact .quiet rfl

/-- **The calls of a run** are the first ones of its plan, up to the first failure. -/
theorem run_along (table : IndexTable) :
    Along server s (x.plan table) (Action.outcome server (run table) x s c) := by
  rw [run_eq_getClient]
  refine Along.bind getClient_along ?_
  intro uri y events t d hget
  obtain ⟨hclient, htarget⟩ := client_of_getClient hget
  rw [← htarget, ← List.singleton_append]
  refine Along.bind (Along.request .ping) ?_
  intro reply z events u e hping
  rw [Action.outcome_ofJob] at hping
  have hz : y = z := congrArg (fun o => o.result.2) hping
  rw [hz] at hclient ⊢
  exact load_along table hclient

/-- **The calls of the seed**, all of them to the database in the settings: one
creates the database user, and the others create indexes and insert documents. -/
theorem mem_seedCalls {table : IndexTable} {settings : Settings} {q : Request}
    (h : .ok q ∈ seedCalls table settings) :
    q = .createUser settings.databaseName (.text settings.userName)
        (.text settings.userPassword) settings.principal.grants ∨
      (∃ collection keys options,
        q = .createIndex ⟨settings.databaseName, collection⟩ keys options) ∨
      ∃ collection doc, q = .insertOne ⟨settings.databaseName, collection⟩ doc := by
  obtain ⟨stage, hstage, hrequest⟩ := List.mem_filterMap.mp h
  simp only [Seeding.course, Seeding.indexings, List.mem_cons, List.mem_append, List.mem_map,
    List.mem_flatMap, List.not_mem_nil, or_false] at hstage
  rcases hstage with rfl | rfl | rfl | ⟨entry, -, definition, -, rfl⟩ | ⟨_, ⟨a, -, rfl⟩, rfl⟩ |
    rfl | ⟨_, ⟨u, -, rfl⟩, rfl⟩ | rfl
  · cases hrequest
  · cases hrequest
    exact Or.inl rfl
  · cases hrequest
  · unfold Seeding.indexing at hrequest
    split at hrequest <;> cases hrequest
    exact Or.inr (Or.inl ⟨_, _, _, rfl⟩)
  · rw [Seeding.insertion_of_document a.toDocument_toValue] at hrequest
    cases hrequest
    exact Or.inr (Or.inr ⟨_, _, rfl⟩)
  · cases hrequest
  · rw [Seeding.insertion_of_document u.toDocument_toValue] at hrequest
    cases hrequest
    exact Or.inr (Or.inr ⟨_, _, rfl⟩)
  · cases hrequest

theorem close_not_mem_seedCalls (table : IndexTable) (settings : Settings) :
    .ok .close ∉ seedCalls table settings := by
  intro hmem
  obtain hcreate | ⟨_, _, _, hindex⟩ | ⟨_, _, hinsert⟩ := mem_seedCalls hmem
  · cases hcreate
  · cases hindex
  · cases hinsert

theorem close_not_mem_plan (table : IndexTable) (x : Seeder) : .ok .close ∉ x.plan table := by
  unfold plan connection loadingCalls
  cases x.client <;> cases x.resolution.1 <;> cases x.target <;>
    simp [Except.map, close_not_mem_seedCalls]

/-- The calls of a run do not give up the client. -/
theorem close_not_mem_run (table : IndexTable) :
    .close ∉ Event.calls (Action.outcome server (run table) x s c).events := by
  intro hmem
  exact close_not_mem_plan table x ((run_along table).mem_plan hmem)

/-! ## When a run succeeds -/

/-- Settings, sign of life, seed and reading back all succeed, each where the one
before it stopped, and the client takes the name of the database. -/
def Succeeds (server : Server σ) (table : IndexTable) (x : Seeder) (s : σ) (c : Clock) : Prop :=
  let pinged := Action.outcome server ping x s c
  (∃ reply, pinged.result.1 = .ok reply) ∧
  ∃ settings, x.target = .ok settings ∧
    let seeded := Job.outcome server (initialSeed table settings.databaseName settings)
      pinged.state pinged.clock
    (∃ summary, seeded.result = .ok summary) ∧
    ∃ present, (Job.outcome server (Seeding.verify settings.databaseName) seeded.state
      seeded.clock).result = .ok present

theorem load_ok_iff (table : IndexTable) {uri : Text} (hclient : x.client = some uri) :
    (∃ summary, (Action.outcome server (load table) x s c).result.1 = .ok summary) ↔
      ∃ settings, x.target = .ok settings ∧
        let seeded := Job.outcome server (initialSeed table settings.databaseName settings) s c
        (∃ summary, seeded.result = .ok summary) ∧
        ∃ present, (Job.outcome server (Seeding.verify settings.databaseName) seeded.state
          seeded.clock).result = .ok present := by
  have hdatabase : Action.outcome server (getDatabase none) x s c = _ :=
    outcome_getDatabase hclient
  cases htarget : x.target with
  | error f =>
      simp only [load, Action.ok_bind_iff, write, Action.outcome_writeAll, hdatabase, htarget,
        Except.map]
      simp
  | ok settings =>
      have hresolution := resolution_of_target htarget
      have hseed : Action.outcome server (seed table settings.databaseName none) x.remembering s c =
          _ := outcome_seed table settings.databaseName (settings_remembering hresolution)
      simp only [load, Action.ok_bind_iff, write, Action.outcome_writeAll, hdatabase, htarget,
        Except.map, Except.ok.injEq, exists_eq_left', Action.outcome_pure, hseed,
        Action.outcome_ofJob]
      constructor
      · rintro ⟨-, -, summary, hsummary, -, -, present, hpresent, -⟩
        exact ⟨⟨summary, hsummary⟩, present, hpresent⟩
      · rintro ⟨⟨summary, hsummary⟩, present, hpresent⟩
        exact ⟨(), trivial, summary, hsummary, (), trivial, present, hpresent, (), trivial,
          summary, rfl⟩

/-- What a sign of life leaves behind. -/
theorem client_of_ping {reply : Document}
    (h : (Action.outcome server ping x s c).result.1 = .ok reply) :
    (∃ uri, (Action.outcome server ping x s c).result.2.client = some uri) ∧
      (Action.outcome server ping x s c).result.2.target = x.target := by
  rcases hget : Action.outcome server getClient x s c with ⟨⟨e | uri, y⟩, events, t, d⟩
  · rw [ping, Action.outcome_bind_error _ hget] at h
    cases h
  · obtain ⟨hclient, htarget⟩ := client_of_getClient hget
    rw [ping, Action.outcome_bind_ok _ hget, Action.outcome_ofJob]
    exact ⟨⟨uri, hclient⟩, htarget⟩

/-- **A run succeeds exactly when its parts do.** -/
theorem run_ok_iff (table : IndexTable) :
    (∃ summary, (Action.outcome server (run table) x s c).result.1 = .ok summary) ↔
      Succeeds server table x s c := by
  rw [run_eq, Action.ok_bind_iff]
  unfold Succeeds
  constructor
  · rintro ⟨reply, hreply, hload⟩
    obtain ⟨⟨uri, hclient⟩, htarget⟩ := client_of_ping hreply
    obtain ⟨settings, hsettings, hrest⟩ := (load_ok_iff table hclient).mp hload
    exact ⟨⟨reply, hreply⟩, settings, htarget ▸ hsettings, hrest⟩
  · rintro ⟨⟨reply, hreply⟩, settings, hsettings, hrest⟩
    obtain ⟨⟨uri, hclient⟩, htarget⟩ := client_of_ping hreply
    exact ⟨reply, hreply, (load_ok_iff table hclient).mpr
      ⟨settings, htarget.trans hsettings, hrest⟩⟩

/-! ## What a run leaves -/

/-- What a run leaves once it has a client. -/
theorem leaves_with_client (table : IndexTable)
    (hserver : ∀ q s f t, server.answer q s = (.error f, t) → f.Reportable) {uri : Text}
    (hclient : x.client = some uri) :
    let o := Action.outcome server
      (Action.ofJob (Job.request .ping) >>= fun _ => load table) x s c
    (∀ f, o.result.1 = .error f → f.Reportable) ∧ o.result.2.client = some uri ∧
      ∀ r ∈ Event.records o.events, r.Mild := by
  have hsteady : Action.Steady Failure.Reportable LogRecord.Mild (HasClient uri)
      (Action.ofJob (Job.request .ping) >>= fun _ => load table) :=
    .bind (.ofJob (.request _)) fun _ => load_steady table uri
  obtain ⟨⟨hfailed, hkept⟩, hrecords⟩ := (hsteady x hclient).run hserver s c
  exact ⟨hfailed, hkept, hrecords⟩

theorem mild_resolution (x : Seeder) : ∀ r ∈ x.resolution.2, r.Mild :=
  fun r hr => LogRecord.mild_of_warning (x.resolution_mild.2 r hr)

/-- What the attempt to get a client leaves: a client exactly when there was one or
one could be made. -/
theorem getClient_leaves
    (hserver : ∀ q s f t, server.answer q s = (.error f, t) → f.Reportable) :
    let o := Action.outcome server getClient x s c
    (∀ f, o.result.1 = .error f → f.Reportable) ∧
    (∀ r ∈ Event.records o.events, r.Mild) ∧
    (o.result.2.client.isSome = true ↔ x.client.isSome = true ∨
      ∃ settings t, x.resolution.1 = .ok settings ∧
        server.answer (.connect settings.uri) s = (.ok (), t)) := by
  cases hclient : x.client with
  | some uri =>
      rw [outcome_getClient_some hclient]
      refine ⟨nofun, nofun, ?_⟩
      simp [hclient]
  | none =>
      cases hresolution : x.resolution.1 with
      | error f =>
          rw [outcome_getClient_unsettled hclient hresolution]
          refine ⟨?_, by simpa using x.mild_resolution, ?_⟩
          · intro g hg
            cases hg
            exact x.resolution_mild.1 f hresolution
          · simp [client_remembering, hclient]
      | ok settings =>
          rcases hanswer : server.answer (.connect settings.uri) s with ⟨answer, u⟩
          rw [outcome_getClient_settled hclient hresolution hanswer]
          cases answer with
          | error f =>
              refine ⟨?_, by simpa using x.mild_resolution, ?_⟩
              · intro g hg
                cases hg
                exact hserver _ _ _ _ hanswer
              · simp [client_remembering, hclient, hanswer]
          | ok a =>
              refine ⟨nofun, by simpa using x.mild_resolution, ?_⟩
              simp [hanswer]

/-- A run against a server that fails reportably: its failure can be reported,
none of its records is an error, and it leaves a client exactly when there was one
or one could be made. -/
theorem run_leaves (table : IndexTable)
    (hserver : ∀ q s f t, server.answer q s = (.error f, t) → f.Reportable) :
    let o := Action.outcome server (run table) x s c
    (∀ f, o.result.1 = .error f → f.Reportable) ∧
    (∀ r ∈ Event.records o.events, r.Mild) ∧
    (o.result.2.client.isSome = true ↔ x.client.isSome = true ∨
      ∃ settings t, x.resolution.1 = .ok settings ∧
        server.answer (.connect settings.uri) s = (.ok (), t)) := by
  obtain ⟨hreportable, hmild, hiff⟩ := getClient_leaves (x := x) (s := s) (c := c) hserver
  rcases hget : Action.outcome server getClient x s c with ⟨⟨e | uri, y⟩, events, t, d⟩
  · rw [hget] at hreportable hmild hiff
    rw [run_eq_getClient, Action.outcome_bind_error _ hget]
    refine ⟨?_, hmild, hiff⟩
    intro f hf
    cases hf
    exact hreportable e rfl
  · obtain ⟨hclient, -⟩ := client_of_getClient hget
    obtain ⟨hfailed, hkept, hrecords⟩ :=
      leaves_with_client (s := t) (c := d) table hserver hclient
    rw [hget] at hmild hiff
    rw [run_eq_getClient, Action.outcome_bind_ok _ hget]
    refine ⟨hfailed, ?_, ?_⟩
    · intro r hr
      simp only [Outcome.afterAll, Event.records_append, List.mem_append] at hr
      exact hr.elim (hmild r) (hrecords r)
    · simp only [hclient] at hiff
      simp only [Outcome.afterAll, hkept]
      exact hiff

end

end Seeder

end InitialLoad
