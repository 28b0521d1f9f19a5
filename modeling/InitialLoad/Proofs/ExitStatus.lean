import InitialLoad.Proofs.ProgramRun
import InitialLoad.Server.Disturbance

/-!
# Exit status, report and clean-up

The exit status says whether the run succeeded, the log says why it did not, and
the client is closed in any case.  These are three views of one outcome, that of
`run`: `outcome_exitStatus` says that the program goes on from it with `conclude`,
that is with the report, if there is one, and with the client.  `Tells` states the
three views together, and `exitStatus_tells_run` proves them for every server that
never answers with a cancellation.

There is one way to end without an exit status: the client cannot be closed.
-/

namespace InitialLoad

variable {σ α : Type}

/-! ## The failures of the store -/

namespace Store

theorem reportable_of_createIndex {index : Index} {c : Collection} {f : Failure}
    (h : c.createIndex index = .error f) : f.Reportable := by
  simp only [Collection.createIndex] at h
  split at h
  · cases h
    rfl
  · split at h <;> cases h
    unfold Collection.repeatedInDocuments
    split <;> rfl

theorem reportable_of_carryOut {q : Request} {s t : Store} {f : Failure}
    (h : carryOut q s = (.error f, t)) : f.Reportable := by
  cases q with
  | createUser database user pwd roles =>
      simp only [carryOut, createUser] at h
      split at h <;> cases h
      rfl
  | createIndex place keys options =>
      have hrefused := (settle_updateCollection_error_iff.mp h).1
      unfold Collection.createDescribed at hrefused
      split at hrefused
      · exact reportable_of_createIndex hrefused
      · cases hrefused
        rfl
  | insertOne place doc =>
      have hrefused := (settle_updateCollection_error_iff.mp h).1
      simp only [Collection.insert] at hrefused
      split at hrefused <;> cases hrefused
      rfl
  | _ => cases h

/-- The failures of a store can be reported. -/
theorem reportable_of_answer {q : Request} {s t : Store} {f : Failure}
    (h : server.answer q s = (.error f, t)) : f.Reportable := by
  rcases answer_cases q s with ⟨-, hanswer⟩ | ⟨problem, hobstacle, hanswer⟩
  · exact reportable_of_carryOut (hanswer.symm.trans h)
  · cases hanswer.symm.trans h
    exact (Request.obstructs hobstacle).not_cancellation

end Store

/-! ## The end of the program -/

namespace Seeder

/-- The exit status for the result of a run. -/
def statusOf : Except Failure α → Nat
  | .ok _ => 0
  | .error _ => 1

/-- The report on the result of a run. -/
def reportsOf : Except Failure α → List LogRecord
  | .ok _ => []
  | .error f => [⟨.error, logger, failureReport f⟩]

/-- The record is an error that names the failure and its immediate cause. -/
def Reports (r : LogRecord) (f : Failure) : Prop :=
  r.level = .error ∧ f.message <:+: r.message ∧ ∀ cause, f.cause? = some cause →
    cause.problem.name <:+: r.message ∧ cause.message <:+: r.message

/-- The report on a failure reports it. -/
theorem failureReport_reports (f : Failure) : Reports ⟨.error, logger, failureReport f⟩ f := by
  rcases f with ⟨problem, _ | ⟨cause, causes⟩⟩
  · refine ⟨rfl, ⟨"Seeding failed: ", [], ?_⟩, nofun⟩
    simp [failureReport, Text.join]
  · refine ⟨rfl, ⟨"Seeding failed: ", Text.join [" (", cause.name, ": ", cause.message, ")"], ?_⟩,
      ?_⟩
    · simp [failureReport, Text.join]
    · intro g hg
      cases hg
      refine ⟨⟨Text.join ["Seeding failed: ", problem.message, " ("],
        Text.join [": ", cause.message, ")"], ?_⟩,
        ⟨Text.join ["Seeding failed: ", problem.message, " (", cause.name, ": "], ")", ?_⟩⟩
      · simp [failureReport, Text.join, Failure.message]
      · simp [failureReport, Text.join, Failure.message]

section

variable {server : Server σ} {x : Seeder} {s t : σ} {c : Clock}

theorem outcome_closeClient_none (h : x.client = none) :
    Action.outcome server closeClient x s c = ⟨(.ok (), x), [], s, c⟩ := by
  rw [closeClient, Action.outcome_bind_ok _ Action.outcome_state]
  simp only [h]
  rfl

/-- A client that cannot be closed stays. -/
theorem outcome_closeClient_some {uri : Text} {answer : Except Failure Unit}
    (h : x.client = some uri) (hanswer : server.answer .close s = (answer, t)) :
    Action.outcome server closeClient x s c =
      ⟨match answer with
        | .ok _ => (.ok (), { x with client := none })
        | .error f => (.error f, x), [.call .close], t, c⟩ := by
  rw [closeClient, Action.outcome_bind_ok _ Action.outcome_state]
  simp only [h]
  cases answer with
  | error f =>
      rw [Action.outcome_bind_error _ (Action.outcome_request hanswer)]
      rfl
  | ok a =>
      rw [Action.outcome_bind_ok _ (Action.outcome_request hanswer)]
      rfl

/-- What the program does with the result of a run that can be reported. -/
def conclude (result : Except Failure α) : Action Nat := do
  Action.writeAll (reportsOf result)
  closeClient
  return statusOf result

/-- **The program goes on from its run** with the report and the client. -/
theorem outcome_exitStatus (table : IndexTable)
    (hreportable : ∀ f, (Action.outcome server (run table) x s c).result.1 = .error f →
      f.Reportable) :
    let b := Action.outcome server (run table) x s c
    Action.outcome server (exitStatus table) x s c =
      (Action.outcome server (conclude b.result.1) b.result.2 b.state b.clock).afterAll
        b.events := by
  intro b
  rw [exitStatus, Action.outcome_bind_ok _ Action.outcome_attempt]
  show (Action.outcome server _ b.result.2 b.state b.clock).afterAll b.events = _
  cases hresult : b.result.1 with
  | ok summary =>
      rw [conclude, Action.outcome_bind_ok _ (Action.outcome_writeAll _)]
      rfl
  | error f =>
      have hreport : f.problem.isCancellation = false := hreportable f hresult
      simp only [hreport, Bool.false_eq_true, if_false]
      rfl

theorem outcome_conclude_none (result : Except Failure α) (h : x.client = none) :
    Action.outcome server (conclude result) x s c =
      ⟨(.ok (statusOf result), x), (reportsOf result).map .record, s, c⟩ := by
  rw [conclude, Action.outcome_bind_ok _ (Action.outcome_writeAll _),
    Action.outcome_bind_ok _ (outcome_closeClient_none h), Action.outcome_pure]
  simp [Outcome.afterAll]

theorem outcome_conclude_some (result : Except Failure α) {uri : Text}
    {answer : Except Failure Unit} (h : x.client = some uri)
    (hanswer : server.answer .close s = (answer, t)) :
    Action.outcome server (conclude result) x s c =
      ⟨match answer with
        | .ok _ => (.ok (statusOf result), { x with client := none })
        | .error f => (.error f, x),
        (reportsOf result).map .record ++ [.call .close], t, c⟩ := by
  have hclose := outcome_closeClient_some (c := c) h hanswer
  rw [conclude, Action.outcome_bind_ok _ (Action.outcome_writeAll _)]
  cases answer with
  | error f =>
      rw [Action.outcome_bind_error _ hclose]
      rfl
  | ok a =>
      rw [Action.outcome_bind_ok _ hclose, Action.outcome_pure]
      simp [Outcome.afterAll]

/-- The report comes before the client is closed. -/
theorem events_conclude (result : Except Failure α) :
    (Action.outcome server (conclude result) x s c).events =
      (reportsOf result).map .record ++ if x.client.isSome then [.call .close] else [] := by
  cases hclient : x.client with
  | none =>
      rw [outcome_conclude_none result hclient]
      simp
  | some uri =>
      rcases hanswer : server.answer .close s with ⟨answer, t⟩
      rw [outcome_conclude_some result hclient hanswer]
      rfl

theorem result_conclude_of_closes (result : Except Failure α)
    (h : x.client = none ∨ ∃ t, server.answer .close s = (.ok (), t)) :
    (Action.outcome server (conclude result) x s c).result =
      (.ok (statusOf result), { x with client := none }) := by
  cases hclient : x.client with
  | none =>
      rw [outcome_conclude_none result hclient]
      rcases x with ⟨environment, file, settings, _⟩
      cases hclient
      rfl
  | some uri =>
      obtain hnone | ⟨t, hanswer⟩ := h
      · rw [hclient] at hnone
        cases hnone
      · rw [outcome_conclude_some result hclient hanswer]

theorem result_conclude_of_refusal (result : Except Failure α) {f : Failure}
    (hclient : x.client.isSome) (h : server.answer .close s = (.error f, t)) :
    (Action.outcome server (conclude result) x s c).result = (.error f, x) := by
  obtain ⟨uri, huri⟩ := Option.isSome_iff_exists.mp hclient
  rw [outcome_conclude_some result huri h]

end

/-! ## What the program tells of its run -/

/-- The client of the run, if it left one, can be closed. -/
def Closes (server : Server σ) (b : Outcome σ (Except Failure Seeding.Summary × Seeder)) : Prop :=
  b.result.2.client = none ∨ ∃ t, server.answer .close b.state = (.ok (), t)

/-- How the program ends, with outcome `o`, after a run with outcome `b`. -/
structure Tells (server : Server σ) (succeeds : Prop)
    (b : Outcome σ (Except Failure Seeding.Summary × Seeder))
    (o : Outcome σ (Except Failure Nat × Seeder)) : Prop where
  /-- The run itself records no error. -/
  mild : ∀ r ∈ Event.records b.events, r.Mild
  /-- Nothing is recorded after a run that succeeded. -/
  silent : succeeds → Event.records o.events = Event.records b.events
  /-- A run that failed is followed by one record, which reports its failure. -/
  reported : ¬ succeeds → ∃ f report, b.result.1 = .error f ∧ Reports report f ∧
    Event.records o.events = Event.records b.events ++ [report]
  /-- The run itself does not close the client. -/
  unclosed : .close ∉ Event.calls b.events
  /-- Afterwards the client is closed, if there is one, and nothing else is called. -/
  closing : Event.calls o.events = Event.calls b.events ++
    if b.result.2.client.isSome then [.close] else []
  /-- The exit status says whether the run succeeded, and no client remains. -/
  status : Closes server b → o.result.2.client = none ∧
    (succeeds → o.result.1 = .ok 0) ∧ (¬ succeeds → o.result.1 = .ok 1)
  /-- A client that cannot be closed remains, and there is no exit status. -/
  stuck : ∀ f t, b.result.2.client.isSome → server.answer .close b.state = (.error f, t) →
    o.result = (.error f, b.result.2)

section

variable {server : Server σ} {x : Seeder} {s : σ} {c : Clock}

/-- What the program does after a run tells of it. -/
theorem tells_conclude (server : Server σ)
    {b : Outcome σ (Except Failure Seeding.Summary × Seeder)}
    (hmild : ∀ r ∈ Event.records b.events, r.Mild) (hunclosed : .close ∉ Event.calls b.events) :
    Tells server (∃ summary, b.result.1 = .ok summary) b
      ((Action.outcome server (conclude b.result.1) b.result.2 b.state b.clock).afterAll
        b.events) := by
  have hrecords : Event.records ((Action.outcome server (conclude b.result.1) b.result.2 b.state
      b.clock).afterAll b.events).events = Event.records b.events ++ reportsOf b.result.1 := by
    simp only [Outcome.afterAll, events_conclude, Event.records_append, Event.records_map_record]
    split <;> simp
  have hfailed : (¬ ∃ summary, b.result.1 = .ok summary) → ∃ f, b.result.1 = .error f := by
    intro h
    cases hresult : b.result.1 with
    | ok summary => exact absurd ⟨summary, hresult⟩ h
    | error f => exact ⟨f, rfl⟩
  refine ⟨hmild, ?silent, ?reported, hunclosed, ?closing, ?status, ?stuck⟩
  case silent =>
    rintro ⟨summary, hsummary⟩
    rw [hrecords, hsummary, reportsOf, List.append_nil]
  case reported =>
    intro h
    obtain ⟨f, hf⟩ := hfailed h
    refine ⟨f, _, hf, failureReport_reports f, ?_⟩
    rw [hrecords, hf, reportsOf]
  case closing =>
    simp only [Outcome.afterAll, events_conclude, Event.calls_append, Event.calls_map_record]
    split <;> simp
  case status =>
    intro hcloses
    have hresult := result_conclude_of_closes (c := b.clock) b.result.1 hcloses
    simp only [Outcome.afterAll, hresult]
    refine ⟨trivial, ?_, ?_⟩
    · rintro ⟨summary, hsummary⟩
      rw [hsummary, statusOf]
    · intro h
      obtain ⟨f, hf⟩ := hfailed h
      rw [hf, statusOf]
  case stuck =>
    intro f t hclient hanswer
    exact result_conclude_of_refusal b.result.1 hclient hanswer

/-- **Exit status, report and clean-up.**  Against every server whose failures can
be reported, from every seeder: the run makes the first calls of its plan, up to
the first failure, and leaves a client exactly when there was one or one could be
made; and the program tells whether all parts of the run succeeded. -/
theorem exitStatus_tells_run (server : Server σ)
    (hserver : ∀ q s f t, server.answer q s = (.error f, t) → f.Reportable) (table : IndexTable)
    (x : Seeder) (s : σ) (c : Clock) :
    let b := Action.outcome server (run table) x s c
    Along server s (x.plan table) b ∧
      (b.result.2.client.isSome = true ↔ x.client.isSome = true ∨
        ∃ settings t, x.resolution.1 = .ok settings ∧
          server.answer (.connect settings.uri) s = (.ok (), t)) ∧
      Tells server (Succeeds server table x s c) b
        (Action.outcome server (exitStatus table) x s c) := by
  intro b
  obtain ⟨hreportable, hmild, hclient⟩ := run_leaves (x := x) (s := s) (c := c) table hserver
  have htells := tells_conclude server hmild (close_not_mem_run table)
  rw [← outcome_exitStatus table hreportable, run_ok_iff table] at htells
  exact ⟨run_along table, hclient, htells⟩

end

/-- On a store that was loaded before, the exit status is 1, and the client that
was made for it is closed after the refusal of the database user. -/
theorem exitStatus_tells_second_run :
    let first := Action.outcome Store.server (exitStatus Layout.declaredIndexes) {} .empty []
    let b := Action.outcome Store.server (run Layout.declaredIndexes) {} first.state []
    let o := Action.outcome Store.server (exitStatus Layout.declaredIndexes) {} first.state []
    first.result.1 = .ok 0 ∧ o.result.1 = .ok 1 ∧
      (Event.calls o.events).map Request.point = [.connect, .command, .command, .close] ∧
      Along Store.server first.state (plan Layout.declaredIndexes {}) b ∧
      Tells Store.server (Succeeds Store.server Layout.declaredIndexes {} first.state []) b o := by
  intro first b o
  have hzero : first.result.1.toOption = some 0 := by decide +kernel
  have hone : o.result.1.toOption = some 1 := by decide +kernel
  have hcalls : (Event.calls o.events).map Request.point =
      [.connect, .command, .command, .close] := by decide +kernel
  have hok : ∀ {e : Except Failure Nat} {n : Nat}, e.toOption = some n → e = .ok n := by
    intro e n h
    cases e <;> cases h
    rfl
  obtain ⟨halong, -, htells⟩ := exitStatus_tells_run Store.server
    (fun _ _ _ _ h => Store.reportable_of_answer h) Layout.declaredIndexes {} first.state []
  exact ⟨hok hzero, hok hone, hcalls, halong, htells⟩

/-- A load succeeds, but its client cannot be closed: the program fails instead of
giving an exit status, and the client remains. -/
theorem refused_close_is_raised :
    let server := Disturbance.server Store.server
    let s : List Disturbance × Store :=
      ([⟨.close, 0, Failure.of (.troubled .runtime "Event loop is closed")⟩], .empty)
    let b := Action.outcome server (run Layout.declaredIndexes) {} s []
    let o := Action.outcome server (exitStatus Layout.declaredIndexes) {} s []
    (∃ summary, b.result.1 = .ok summary) ∧
      (∃ f, o.result.1 = .error f) ∧ ∃ uri, o.result.2.client = some uri := by
  intro server s b o
  have hrun : b.result.1.toBool = true := by decide +kernel
  have hfailed : o.result.1.toBool = false := by decide +kernel
  have hclient : o.result.2.client.isSome = true := by decide +kernel
  refine ⟨?_, ?_, Option.isSome_iff_exists.mp hclient⟩
  · cases hresult : b.result.1 with
    | ok summary => exact ⟨summary, rfl⟩
    | error f =>
        rw [hresult] at hrun
        cases hrun
  · cases hresult : o.result.1 with
    | ok status =>
        rw [hresult] at hfailed
        cases hfailed
    | error f => exact ⟨f, rfl⟩

end Seeder

end InitialLoad
