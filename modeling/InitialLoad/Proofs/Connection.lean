import InitialLoad.Proofs.Actions

/-!
# Settings and client of a seeder

The settings of a seeder are a function of what it keeps: those that were
resolved before, or what its environment and its file resolve to.  Asking for
them makes no call.  A client is made for their address at the first use, and is
kept by everything else that a seeder does until it is closed.
-/

namespace InitialLoad

variable {σ : Type}

/-- A success is known by its result. -/
theorem ok_of_toOption {α : Type} {e : Except Failure α} {a : α} (h : e.toOption = some a) :
    e = .ok a := by
  cases e with
  | error f => cases h
  | ok b => exact congrArg Except.ok (Option.some.inj h)

namespace Seeder

/-- What the settings resolve to, and the reports on the environment file. -/
def resolution (x : Seeder) : Except Failure Settings × List LogRecord :=
  match x.settings with
  | some settings => (.ok settings, [])
  | none =>
    match x.file with
    | none => (Settings.resolve ⟨.exact, [], x.environment, []⟩, [])
    | some bytes =>
      match Settings.loadFile x.environment bytes with
      | .error f => (.error f, [])
      | .ok (file, reports) => (Settings.resolve ⟨.exact, [], x.environment, file⟩, reports)

theorem failure_of_resolve {sources : Settings.Sources} {f : Failure}
    (h : Settings.resolve sources = .error f) :
    ∃ faults, f = Failure.of (.invalid "Settings" faults) := by
  unfold Settings.resolve at h
  split at h <;> cases h
  exact ⟨_, rfl⟩

/-- **How settings fail to resolve**: by faults in their values, or by a file that is no
text.  The only reports are those on statements in the file. -/
theorem resolution_fails (x : Seeder) :
    (∀ f, x.resolution.1 = .error f → (∃ faults, f = Failure.of (.invalid "Settings" faults)) ∨
      ∃ fault, f = Failure.of (.undecodable fault)) ∧
    ∀ r ∈ x.resolution.2, ∃ line, r = Settings.faultyStatement line := by
  unfold resolution
  split
  · exact ⟨nofun, nofun⟩
  · split
    · exact ⟨fun f hf => Or.inl (failure_of_resolve hf), nofun⟩
    · split
      · rename_i bytes f hload
        refine ⟨?_, nofun⟩
        rintro _ ⟨⟩
        unfold Settings.loadFile at hload
        split at hload <;> cases hload
        exact Or.inr ⟨_, rfl⟩
      · rename_i bytes file reports hload
        refine ⟨fun f hf => Or.inl (failure_of_resolve hf), ?_⟩
        unfold Settings.loadFile at hload
        split at hload <;> cases hload
        intro r hr
        obtain ⟨line, -, rfl⟩ := List.mem_map.mp hr
        exact ⟨line, rfl⟩

/-- The seeder after its settings were asked for. -/
def remembering (x : Seeder) : Seeder :=
  match x.resolution.1 with
  | .ok settings => { x with settings := some settings }
  | .error _ => x

theorem run_resolveSettings {x : Seeder} (hnone : x.settings = none) :
    (resolveSettings [] false).run x =
      Procedure.writing x.resolution.2 (.done (x.resolution.1, x)) := by
  have hexcept : ∀ {α : Type} (e : Except Failure α),
      (Action.ofJob (Job.ofExcept e)).run x = .done (e, x) := fun _ => rfl
  simp only [resolveSettings, Action.run_bind, Action.run_state, Procedure.bind, resolution, hnone,
    Bool.false_eq_true, if_false]
  cases hfile : x.file with
  | none => exact hexcept _
  | some bytes =>
      simp only [Action.run_bind, hexcept, Procedure.bind]
      cases hload : Settings.loadFile x.environment bytes with
      | error f => rfl
      | ok loaded =>
          simp only [Action.run_writeAll, Procedure.bind_writing, Procedure.bind, hexcept]

/-- **Asking for the settings makes no call.**  What they resolve to is kept. -/
theorem run_getSettings (x : Seeder) :
    getSettings.run x =
      Procedure.writing x.resolution.2 (.done (x.resolution.1, x.remembering)) := by
  simp only [getSettings, Action.run_bind, Action.run_state, Procedure.bind]
  cases hsettings : x.settings with
  | some settings =>
      rcases x with ⟨environment, file, _, client⟩
      cases hsettings
      rfl
  | none =>
      simp only [Action.run_bind, run_resolveSettings hsettings, Procedure.bind_writing,
        Procedure.bind]
      congr 1
      unfold remembering
      cases x.resolution.1 with
      | error f => rfl
      | ok settings => rfl

section

variable {server : Server σ} {x : Seeder} {s : σ} {c : Clock}

theorem outcome_getSettings :
    Action.outcome server getSettings x s c =
      ⟨(x.resolution.1, x.remembering), x.resolution.2.map .record, s, c⟩ := by
  unfold Action.outcome
  rw [run_getSettings, Procedure.run_writing]
  simp [Procedure.run, Outcome.afterAll]

/-- The settings of a seeder that keeps them. -/
theorem resolution_of_settings {settings : Settings} (h : x.settings = some settings) :
    x.resolution = (.ok settings, []) := by
  simp only [resolution, h]

theorem settings_remembering {settings : Settings} (h : x.resolution.1 = .ok settings) :
    x.remembering.settings = some settings := by
  simp only [remembering, h]

/-- Settings that do not resolve were not kept, and are not kept now. -/
theorem settings_of_unresolved {f : Failure} (h : x.resolution.1 = .error f) :
    x.settings = none := by
  cases hsettings : x.settings with
  | none => rfl
  | some settings =>
      rw [resolution_of_settings hsettings] at h
      cases h

theorem remembering_of_unresolved {f : Failure} (h : x.resolution.1 = .error f) :
    x.remembering = x := by
  simp only [remembering, h]

theorem client_remembering (x : Seeder) : x.remembering.client = x.client := by
  unfold remembering
  split <;> rfl

theorem nameRefusal_remembering (x : Seeder) :
    x.remembering.nameRefusal? = x.nameRefusal? := by
  unfold remembering
  split <;> rfl

end

/-! ## The client -/

section

variable {server : Server σ} {x : Seeder} {s : σ} {c : Clock}

theorem run_getClient_some {uri : Text} (h : x.client = some uri) :
    getClient.run x = .done (.ok uri, x) := by
  simp only [getClient, Action.run_bind, Action.run_state, Procedure.bind, h]
  rfl

theorem outcome_getClient_some {uri : Text} (h : x.client = some uri) :
    Action.outcome server getClient x s c = ⟨(.ok uri, x), [], s, c⟩ := by
  unfold Action.outcome
  rw [run_getClient_some h]
  rfl

/-- Without a client and without settings nothing is called. -/
theorem outcome_getClient_unsettled {f : Failure} (hnone : x.client = none)
    (hresolution : x.resolution.1 = .error f) :
    Action.outcome server getClient x s c =
      ⟨(.error f, x.remembering), x.resolution.2.map .record, s, c⟩ := by
  rw [getClient, Action.outcome_bind_ok _ Action.outcome_state]
  simp only [hnone]
  have hsettings : Action.outcome server getSettings x s c = _ := outcome_getSettings
  rw [hresolution] at hsettings
  rw [Action.outcome_bind_error _ hsettings]
  rfl

/-- Without a client one is made for the address in the settings; it is kept if
it could be made. -/
theorem outcome_getClient_settled {settings : Settings} {t : σ} {answer : Except Failure Unit}
    (hnone : x.client = none) (hresolution : x.resolution.1 = .ok settings)
    (hanswer : server.answer (.connect settings.uri) s = (answer, t)) :
    Action.outcome server getClient x s c =
      ⟨match answer with
        | .ok _ => (.ok settings.uri, { x.remembering with client := some settings.uri })
        | .error f => (.error f, x.remembering),
        x.resolution.2.map .record ++ [.call (.connect settings.uri)], t, c⟩ := by
  rw [getClient, Action.outcome_bind_ok _ Action.outcome_state]
  simp only [hnone]
  have hsettings : Action.outcome server getSettings x s c = _ := outcome_getSettings
  rw [hresolution] at hsettings
  rw [Action.outcome_bind_ok _ hsettings]
  cases answer with
  | error f =>
      rw [Action.outcome_bind_error _ (Action.outcome_request hanswer)]
      rfl
  | ok a =>
      rw [Action.outcome_bind_ok _ (Action.outcome_request hanswer)]
      rfl

/-! ## The database -/

/-- The settings, unless the client refuses the name of the database that they say. -/
def target (x : Seeder) : Except Failure Settings :=
  x.resolution.1 >>= fun settings => (x.databaseNamed settings.databaseName).map fun _ => settings

theorem databaseNamed_congr {y : Seeder} (h : y.nameRefusal? = x.nameRefusal?) (name : Text) :
    y.databaseNamed name = x.databaseNamed name := by
  simp only [databaseNamed, h]

theorem target_congr {y : Seeder} (hresolution : y.resolution.1 = x.resolution.1)
    (hnames : y.nameRefusal? = x.nameRefusal?) : y.target = x.target := by
  unfold target
  rw [hresolution]
  simp only [databaseNamed_congr hnames]

/-- The database of a name has that name. -/
theorem databaseNamed_ok {name database : Text} (h : x.databaseNamed name = .ok database) :
    database = name := by
  unfold databaseNamed at h
  split at h
  · exact (Except.ok.inj h).symm
  · cases h

theorem target_of_unresolved {f : Failure} (h : x.resolution.1 = .error f) :
    x.target = .error f := by
  unfold target
  rw [h]
  rfl

theorem target_of_resolved {settings : Settings} (h : x.resolution.1 = .ok settings) :
    x.target = (x.databaseNamed settings.databaseName).map fun _ => settings := by
  unfold target
  rw [h]
  rfl

theorem resolution_of_target {settings : Settings} (h : x.target = .ok settings) :
    x.resolution.1 = .ok settings := by
  cases hresolution : x.resolution.1 with
  | error f =>
      rw [target_of_unresolved hresolution] at h
      cases h
  | ok v =>
      rw [target_of_resolved hresolution] at h
      cases hnamed : x.databaseNamed v.databaseName <;> rw [hnamed] at h <;> cases h
      rfl

/-- What a client that was got or made leaves behind. -/
theorem client_of_getClient {uri : Text} {y : Seeder} {events : List Event} {t : σ} {d : Clock}
    (h : Action.outcome server getClient x s c = ⟨(.ok uri, y), events, t, d⟩) :
    y.client = some uri ∧ y.target = x.target := by
  cases hclient : x.client with
  | some old =>
      rw [outcome_getClient_some hclient] at h
      cases h
      exact ⟨hclient, rfl⟩
  | none =>
      cases hresolution : x.resolution.1 with
      | error f =>
          rw [outcome_getClient_unsettled hclient hresolution] at h
          cases h
      | ok settings =>
          rcases hanswer : server.answer (.connect settings.uri) s with ⟨answer, u⟩
          rw [outcome_getClient_settled hclient hresolution hanswer] at h
          cases answer with
          | error f => cases h
          | ok a =>
              cases h
              have hsettings : ({ x.remembering with client := some settings.uri } :
                  Seeder).settings = some settings := settings_remembering hresolution
              refine ⟨rfl, target_congr ?_ (nameRefusal_remembering x)⟩
              rw [resolution_of_settings hsettings, hresolution]

theorem run_chosenName_none : (chosenName none).run x = Procedure.writing x.resolution.2
    (.done (x.resolution.1.map Settings.databaseName, x.remembering)) := by
  simp only [chosenName, Action.run_bind, run_getSettings, Procedure.bind_writing]
  congr 1
  cases x.resolution.1 <;> rfl

/-- With a client, asking for the database of the settings makes no call. -/
theorem run_getDatabase {uri : Text} (h : x.client = some uri) :
    (getDatabase none).run x = Procedure.writing x.resolution.2
      (.done (x.target.map Settings.databaseName, x.remembering)) := by
  simp only [getDatabase, Action.run_bind, run_getClient_some h, Procedure.bind,
    run_chosenName_none, Procedure.bind_writing]
  congr 1
  cases hresolution : x.resolution.1 with
  | error f =>
      rw [target_of_unresolved hresolution]
      rfl
  | ok settings =>
      have hnamed := databaseNamed_congr (nameRefusal_remembering x) settings.databaseName
      rw [target_of_resolved hresolution]
      simp only [Except.map, Procedure.bind, Action.run_state, hnamed]
      cases hdatabase : x.databaseNamed settings.databaseName with
      | error f => rfl
      | ok database =>
          rw [databaseNamed_ok hdatabase]
          rfl

theorem outcome_getDatabase {uri : Text} (h : x.client = some uri) :
    Action.outcome server (getDatabase none) x s c =
      ⟨(x.target.map Settings.databaseName, x.remembering), x.resolution.2.map .record,
        s, c⟩ := by
  unfold Action.outcome
  rw [run_getDatabase h, Procedure.run_writing]
  simp [Procedure.run, Outcome.afterAll]

end

end Seeder

end InitialLoad
