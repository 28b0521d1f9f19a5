import InitialLoad.Proofs.SeederHistories
import Mathlib.Data.List.Induction

/-!
# How long settings and client last

Settings and client are kept apart and given up apart: settings until they are
forgotten, a client until it is closed.  So a client can outlive the settings for
which it was made, and settings the client.  `Lifetimes` says in full what is
kept, from when to when, over every history from every situation; `lifetimes`
proves it for every server, whatever its answers are.
-/

namespace InitialLoad.Seeder

variable {σ : Type}

open InitialLoad.Action (Leads)

/-- The name of the database that is meant: the given one, unless it is empty, or
else the one in the settings. -/
def nameFor (name : Option Text) (x : Seeder) : Except Failure Text :=
  match name.filter fun n => !n.isEmpty with
  | some n => .ok n
  | none => x.resolution.1.map Settings.databaseName

/-- The database of the name that is meant, unless the client refuses the name. -/
def databaseFor (name : Option Text) (x : Seeder) : Except Failure Text :=
  x.nameFor name >>= x.databaseNamed

/-- The lifetimes of settings and client from a situation on. -/
structure Lifetimes (server : Server σ) (w : Situation σ) : Prop where
  /-- Settings that are not kept are resolved from environment and file, and are
  kept if they could be. -/
  given : ∀ clock, (w.outcome server getSettings clock).result =
    (w.seeder.resolution.1, w.seeder.remembering)
  /-- **Settings that were given once** are given again until they are forgotten, -/
  same : ∀ clock v history, (w.outcome server getSettings clock).result.1 = .ok v →
    (∀ m ∈ history, m.operation ≠ .clearSettings) → ∀ later,
      ((after server (⟨.getSettings, clock⟩ :: history) w).outcome server getSettings
        later).result.1 = .ok v
  /-- and so are those that were resolved for anything else. -/
  kept : ∀ v history, w.seeder.settings = some v →
    (∀ m ∈ history, m.operation ≠ .clearSettings) →
      (after server history w).seeder.settings = some v
  resolved : ∀ (m : Moment) v, (m.after server w).seeder.settings = some v →
    w.seeder.resolution.1 = .ok v
  /-- **A failure to resolve them** is not kept; it changes nothing, -/
  failed : ∀ f, w.seeder.resolution.1 = .error f → ∀ clock,
    (Moment.mk .getSettings clock).after server w = w
  /-- and whatever is tried instead leaves settings and client as they are, unless it
  closes the client. -/
  unresolved : ∀ f, w.seeder.resolution.1 = .error f → ∀ m : Moment,
    (m.after server w).seeder.settings = w.seeder.settings ∧
      (¬ m.operation.Closes → (m.after server w).seeder.client = w.seeder.client)
  /-- **At most one client** is open at any time, -/
  single : ∀ history first later, exchanges server history w = first ++ later →
    (openClients w.seeder.client.toList first).length ≤ 1
  /-- and every call goes over it, except the one that makes it. -/
  through : ∀ history first e later, exchanges server history w = first ++ e :: later →
    e.Fits (openClients w.seeder.client.toList first)
  held : ∀ history, openClients w.seeder.client.toList (exchanges server history w) =
    (after server history w).seeder.client.toList
  /-- The client that there is is used by whatever asks for one. -/
  used : ∀ uri clock, w.seeder.client = some uri →
    w.outcome server getClient clock = ⟨(.ok uri, w.seeder), [], w.state, clock⟩
  /-- It is there until a closing is accepted, -/
  lasting : ∀ uri history, w.seeder.client = some uri →
    ⟨.close, true⟩ ∉ exchanges server history w →
      (after server history w).seeder.client = some uri
  /-- which only two operations ask for. -/
  closing : ∀ (m : Moment) accepted, ⟨.close, accepted⟩ ∈ m.exchanges server w →
    m.operation.Closes
  closed : ∀ m : Moment, m.operation.Closes → ⟨.close, false⟩ ∉ m.exchanges server w →
    (m.after server w).seeder.client = none
  /-- **The address of a client** is the one in the settings that were kept when it
  was made, -/
  made : ∀ (m : Moment) uri accepted, ⟨.connect uri, accepted⟩ ∈ m.exchanges server w →
    ∃ v, w.seeder.resolution.1 = .ok v ∧ (m.after server w).seeder.settings = some v ∧
      v.uri = uri
  /-- however long ago that was. -/
  origin : ∀ uri history, w.seeder.client = none →
    (after server history w).seeder.client = some uri →
    ∃ first m later v, history = first ++ m :: later ∧
      ⟨.connect uri, true⟩ ∈ m.exchanges server (after server first w) ∧
      (after server (first ++ [m]) w).seeder.settings = some v ∧ v.uri = uri ∧
      ⟨.close, true⟩ ∉ exchanges server later (after server (first ++ [m]) w)
  /-- **A database is asked for** over the client, by its name if it is given one that
  is not empty, and else by that in the settings; the client may refuse the name. -/
  database : ∀ name clock,
    let o := w.outcome server getClient clock
    let p := w.outcome server (getDatabase name) clock
    Event.calls p.events = Event.calls o.events ∧ p.state = o.state ∧
      match o.result with
      | (.error f, y) => p.result = (.error f, y)
      | (.ok uri, y) => p.result.1 = y.databaseFor name ∧ Continues y p.result.2 ∧
          p.result.2.client = some uri

section

variable {server : Server σ} {w : Situation σ}

theorem outcome_settings (clock : Clock) :
    (w.outcome server getSettings clock).result = (w.seeder.resolution.1, w.seeder.remembering) :=
  congrArg Outcome.result outcome_getSettings

/-- After settings were asked for they are as `remembering` says. -/
theorem after_getSettings (clock : Clock) :
    (Moment.mk .getSettings clock).after server w = ⟨w.seeder.remembering, w.state⟩ := by
  have hsettings : Action.outcome server getSettings w.seeder w.state clock = _ :=
    outcome_getSettings
  have hdiscard : (Operation.getSettings).action =
      getSettings >>= fun _ => (pure () : Action Unit) := rfl
  unfold Moment.after Situation.outcome
  simp only [hdiscard]
  cases hresolution : w.seeder.resolution.1 with
  | error f =>
      rw [hresolution] at hsettings
      rw [Action.outcome_bind_error _ hsettings]
  | ok v =>
      rw [hresolution] at hsettings
      rw [Action.outcome_bind_ok _ hsettings, Action.outcome_pure]
      rfl

/-- A closing that is attempted either closes the client or is refused. -/
theorem closeClient_closes {x y : Seeder} {es : List Exchange} {r : Except Failure Unit}
    (h : Leads closeClient x es r y) (hrefused : ⟨.close, false⟩ ∉ es) : y.client = none := by
  have hstate := h.of_state_bind
  cases hclient : x.client with
  | none =>
      simp only [hclient] at hstate
      obtain ⟨-, -, rfl⟩ := hstate.of_pure
      exact hclient
  | some uri =>
      simp only [hclient] at hstate
      obtain ⟨e, rfl, rfl, rfl⟩ | ⟨a, later, rfl, hrest⟩ := hstate.of_request_bind
      · exact absurd List.mem_cons_self hrefused
      · obtain ⟨-, rfl⟩ := hrest.of_update
        rfl

/-- Whatever follows the closing in the program, the closing comes to its end. -/
theorem closeClient_then_closes {α : Type} {f : Unit → Action α} {x y : Seeder}
    {es : List Exchange} {r : Except Failure α} (h : Leads (closeClient >>= f) x es r y)
    (hf : ∀ x es r y, Leads (f ()) x es r y → y = x) (hrefused : ⟨.close, false⟩ ∉ es) :
    y.client = none := by
  obtain ⟨e, -, hclose⟩ | ⟨a, z, first, later, rfl, hclose, hrest⟩ := h.of_bind
  · exact closeClient_closes hclose hrefused
  · rw [hf z later r y hrest]
    exact closeClient_closes hclose fun hmem => hrefused (List.mem_append_left _ hmem)

/-- The program closes the client in the end, unless that is refused. -/
theorem exitStatus_closes {table : IndexTable} {x y : Seeder} {es : List Exchange}
    {r : Except Failure Nat} (h : Leads (exitStatus table) x es r y)
    (hrefused : ⟨.close, false⟩ ∉ es) : y.client = none := by
  obtain ⟨e, -, hattempt⟩ | ⟨result, z, first, later, rfl, -, hrest⟩ := h.of_bind
  · obtain ⟨result, hresult, -⟩ := hattempt.of_attempt
    cases hresult
  · have hlater : ⟨.close, false⟩ ∉ later := fun hmem => hrefused (List.mem_append_right _ hmem)
    cases result with
    | ok summary =>
        exact closeClient_then_closes hrest (fun _ _ _ _ h => h.of_pure.2.2) hlater
    | error f =>
        simp only at hrest
        split at hrest
        · exact closeClient_then_closes hrest (fun _ _ _ _ h => h.of_fail.2) hlater
        · obtain ⟨e, -, hwrite⟩ | ⟨_, z', first', later', rfl, -, hclose⟩ := hrest.of_bind
          · obtain ⟨-, hresult, -⟩ := hwrite.of_writeAll
            cases hresult
          · exact closeClient_then_closes hclose (fun _ _ _ _ h => h.of_pure.2.2)
              fun hmem => hlater (List.mem_append_right _ hmem)

/-- The operations that close the client leave none, unless closing is refused. -/
theorem Moment.closed {m : Moment} (hcloses : m.operation.Closes)
    (hrefused : ⟨.close, false⟩ ∉ m.exchanges server w) :
    (m.after server w).seeder.client = none := by
  have hleads : Leads m.operation.action w.seeder (m.exchanges server w) _
      (m.after server w).seeder :=
    Action.leads_outcome server m.operation.action w.seeder w.state m.clock
  rcases m with ⟨operation, clock⟩
  cases operation with
  | close => exact closeClient_closes hleads hrefused
  | exitStatus table =>
      obtain ⟨result, hexit⟩ := hleads.of_discard
      exact exitStatus_closes hexit hrefused
  | _ => cases hcloses

/-- A client that is there after a moment was there before, and was not closed, or
the moment made it. -/
theorem Moment.client_cases {m : Moment} {uri : Text}
    (h : (m.after server w).seeder.client = some uri) :
    w.seeder.client = some uri ∧ ⟨.close, true⟩ ∉ m.exchanges server w ∨
      ⟨.connect uri, true⟩ ∈ m.exchanges server w := by
  have hturn := m.turn server w
  have hopen := hturn.held
  rw [h] at hopen
  refine (openClients_cases hturn.single hopen).imp_left ?_
  rintro ⟨hclients, hclosed⟩
  exact ⟨Option.toList_eq_singleton_iff.mp hclients, hclosed⟩

/-- **Where a client comes from**: some moment made it, for the address in the
settings that it kept, and it was not closed since. -/
theorem origin_of_client {history : List Moment} {uri : Text} (hnone : w.seeder.client = none)
    (h : (after server history w).seeder.client = some uri) :
    ∃ first m later v, history = first ++ m :: later ∧
      ⟨.connect uri, true⟩ ∈ m.exchanges server (after server first w) ∧
      (after server (first ++ [m]) w).seeder.settings = some v ∧ v.uri = uri ∧
      ⟨.close, true⟩ ∉ exchanges server later (after server (first ++ [m]) w) := by
  -- From the end: the last moment made the client, or it was there before that.
  induction history using List.reverseRecOn with
  | nil =>
      rw [show (after server [] w).seeder.client = none from hnone] at h
      cases h
  | append_singleton front m ih =>
      have hlast : (m.after server (after server front w)).seeder.client = some uri := by
        rwa [after_append] at h
      obtain ⟨hfront, hclosed⟩ | hmade := m.client_cases hlast
      · obtain ⟨first, m', later, v, rfl, hmade, hv, huri, hopen⟩ := ih hfront
        refine ⟨first, m', later ++ [m], v, by simp, hmade, hv, huri, ?_⟩
        have hsplit : after server (first ++ m' :: later) w =
            after server later (after server (first ++ [m']) w) := by
          rw [← after_append, List.append_assoc, List.singleton_append]
        rw [exchanges_append, List.mem_append, ← hsplit]
        simpa [hopen, exchanges] using hclosed
      · obtain ⟨v, -, hv, huri⟩ :=
          (m.turn server (after server front w)).agreeing _ hmade trivial
        refine ⟨front, m, [], v, rfl, hmade, ?_, huri.symm, List.not_mem_nil⟩
        rwa [after_append]

/-- A name is chosen without a call. -/
theorem outcome_chosenName (server : Server σ) (name : Option Text) (y : Seeder) (t : σ)
    (d : Clock) :
    ∃ z events, Action.outcome server (chosenName name) y t d =
        ⟨(y.nameFor name, z), events, t, d⟩ ∧
      Event.calls events = [] ∧ Continues y z ∧ z.client = y.client ∧
        z.nameRefusal? = y.nameRefusal? := by
  have hsettings : Action.outcome server (chosenName none) y t d =
      ⟨(y.resolution.1.map Settings.databaseName, y.remembering),
        y.resolution.2.map .record, t, d⟩ := by
    unfold Action.outcome
    rw [run_chosenName_none, Procedure.run_writing]
    simp [Procedure.run, Outcome.afterAll]
  have hfrom : ∀ {name : Option Text},
      y.nameFor name = y.resolution.1.map Settings.databaseName →
      ∃ z events, Action.outcome server (chosenName none) y t d =
          ⟨(y.nameFor name, z), events, t, d⟩ ∧
        Event.calls events = [] ∧ Continues y z ∧ z.client = y.client ∧
          z.nameRefusal? = y.nameRefusal? := by
    intro name hname
    rw [hname]
    exact ⟨_, _, hsettings, Event.calls_map_record _, .remembering y, client_remembering y,
      nameRefusal_remembering y⟩
  cases name with
  | none => exact hfrom rfl
  | some n =>
      cases hempty : n.isEmpty with
      | true =>
          simp only [chosenName, hempty, if_true]
          exact hfrom (by simp [nameFor, Option.filter, hempty])
      | false =>
          simp only [chosenName, hempty, Bool.false_eq_true, if_false]
          refine ⟨y, [], ?_, rfl, .refl y, rfl, rfl⟩
          simp [nameFor, Option.filter, hempty, Action.outcome_pure]

/-- With a client, a database is asked for without a call. -/
theorem outcome_database (server : Server σ) (name : Option Text) (y : Seeder) (t : σ)
    (d : Clock) :
    ∃ z events, Action.outcome server (do
        let chosen ← chosenName name
        let seeder ← Action.state
        Action.ofJob (Job.ofExcept (seeder.databaseNamed chosen))) y t d =
          ⟨(y.databaseFor name, z), events, t, d⟩ ∧
      Event.calls events = [] ∧ Continues y z ∧ z.client = y.client := by
  obtain ⟨z, events, hchosen, hcalls, hcontinues, hclient, hnames⟩ :=
    outcome_chosenName server name y t d
  refine ⟨z, events, ?_, hcalls, hcontinues, hclient⟩
  unfold databaseFor
  cases hname : y.nameFor name with
  | error f =>
      rw [hname] at hchosen
      exact Action.outcome_bind_error _ hchosen
  | ok chosen =>
      rw [hname] at hchosen
      rw [Action.outcome_bind_ok _ hchosen, Action.outcome_bind_ok _ Action.outcome_state,
        Action.outcome_ofJob, databaseNamed_congr hnames]
      simp only [Outcome.afterAll, List.nil_append]
      exact congrArg (Outcome.mk _ · t d) (List.append_nil events)

/-- **A database is asked for** once there is a client. -/
theorem database_of_client (name : Option Text) (clock : Clock) :
    let o := w.outcome server getClient clock
    let p := w.outcome server (getDatabase name) clock
    Event.calls p.events = Event.calls o.events ∧ p.state = o.state ∧
      match o.result with
      | (.error f, y) => p.result = (.error f, y)
      | (.ok uri, y) => p.result.1 = y.databaseFor name ∧ Continues y p.result.2 ∧
          p.result.2.client = some uri := by
  intro o p
  rcases ho : Action.outcome server getClient w.seeder w.state clock with
    ⟨⟨e | uri, y⟩, events, t, d⟩
  · have hp : p = ⟨(.error e, y), events, t, d⟩ := Action.outcome_bind_error _ ho
    rw [show o = _ from ho, hp]
    exact ⟨rfl, rfl, rfl⟩
  · obtain ⟨hclient, -⟩ := client_of_getClient ho
    obtain ⟨z, later, hdatabase, hcalls, hcontinues, hkept⟩ :=
      outcome_database server name y t d
    have hp : p = (Outcome.mk (y.databaseFor name, z) later t d).afterAll events :=
      (Action.outcome_bind_ok _ ho).trans (congrArg (Outcome.afterAll events) hdatabase)
    rw [show o = _ from ho, hp]
    exact ⟨by simp [Outcome.afterAll, hcalls], rfl, rfl, hcontinues, hkept.trans hclient⟩

/-- **Settings and client last** as `Lifetimes` says, whatever the server answers. -/
theorem lifetimes (server : Server σ) (w : Situation σ) : Lifetimes server w where
  given := outcome_settings
  same := by
    intro clock v history hv hkeeps later
    rw [outcome_settings] at hv
    have hkept : ((Moment.mk .getSettings clock).after server w).seeder.settings = some v := by
      rw [after_getSettings]
      exact settings_remembering hv
    rw [outcome_settings]
    exact congrArg Prod.fst (resolution_of_settings (settings_after hkeeps hkept))
  kept := fun v history hv hkeeps => settings_after hkeeps hv
  resolved := fun m v hv => (m.turn server w).resolved v hv
  failed := by
    intro f hf clock
    rw [after_getSettings, remembering_of_unresolved hf]
  unresolved := by
    intro f hf m
    have hturn := m.turn server w
    refine ⟨?_, fun hcloses => hturn.unresolved hcloses f hf⟩
    rw [hturn.settings_unresolved hf, settings_of_unresolved hf]
  single := by
    intro history first later hsplit
    have hsingle := (oneClient_exchanges server history w).1
    rw [hsplit, oneClient_append] at hsingle
    refine openClients_length_le_one ?_ hsingle.1
    cases w.seeder.client <;> simp
  through := by
    intro history first e later hsplit
    have hsingle := (oneClient_exchanges server history w).1
    rw [hsplit, oneClient_append] at hsingle
    exact hsingle.2.1
  held := fun history => (oneClient_exchanges server history w).2
  used := fun uri clock huri => outcome_getClient_some huri
  lasting := fun uri history huri hclosed => client_after huri hclosed
  closing := fun m accepted hmem => (m.turn server w).closing _ hmem rfl
  closed := fun m hcloses hrefused => m.closed hcloses hrefused
  made := by
    intro m uri accepted hmem
    obtain ⟨v, hresolution, hv, huri⟩ := (m.turn server w).agreeing _ hmem trivial
    exact ⟨v, hresolution, hv, huri.symm⟩
  origin := fun uri history hnone h => origin_of_client hnone h
  database := database_of_client

end

end InitialLoad.Seeder
