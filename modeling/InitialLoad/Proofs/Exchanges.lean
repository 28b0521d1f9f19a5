import InitialLoad.Proofs.Actions

/-!
# Exchanges with the server

An `Exchange` is a call together with the fact that it was accepted or not.
`Procedure.Reaches` says with which exchanges a procedure can come to which
result, whatever the server is like, and `Action.Leads` says the same of an
action, which also takes the seeder from one state to another.  A run is one of
these ways: it reaches its result with its `Procedure.exchanges`.

`Action.leads_bind` is the inversion from which everything about a composed
action follows.
-/

namespace InitialLoad

variable {σ α β : Type}

/-- A call, and whether it was accepted. -/
structure Exchange where
  request : Request
  accepted : Bool

namespace Procedure

/-- The exchanges of a run, in order. -/
def exchanges (server : Server σ) : Procedure α → σ → Clock → List Exchange
  | .done _, _, _ => []
  | .call q next, s, c =>
    ⟨q, (server.answer q s).1.toBool⟩ ::
      exchanges server (next (server.answer q s).1) (server.answer q s).2 c
  | .record _ next, s, c => exchanges server next s c
  | .configure _ next, s, c => exchanges server next s c
  | .clock next, s, c => exchanges server (next (Clock.read c).1) s (Clock.read c).2

/-- The calls of the exchanges are the calls among the events. -/
theorem exchanges_map_request (server : Server σ) (p : Procedure α) (s : σ) (c : Clock) :
    (p.exchanges server s c).map Exchange.request = Event.calls (p.run server s c).events := by
  induction p generalizing s c with
  | done a => rfl
  | call q next ih => exact congrArg (q :: ·) (ih _ _ _)
  | record r next ih => exact ih s c
  | configure log next ih => exact ih s c
  | clock next ih => exact ih _ s _

/-- With these exchanges the procedure can come to this result. -/
inductive Reaches : Procedure α → List Exchange → α → Prop
  | done (a : α) : Reaches (.done a) [] a
  | accepted {q : Request} {next : Except Failure q.Answer → Procedure α} {es : List Exchange}
      {a : α} (answer : q.Answer) (rest : Reaches (next (.ok answer)) es a) :
      Reaches (.call q next) (⟨q, true⟩ :: es) a
  | refused {q : Request} {next : Except Failure q.Answer → Procedure α} {es : List Exchange}
      {a : α} (f : Failure) (rest : Reaches (next (.error f)) es a) :
      Reaches (.call q next) (⟨q, false⟩ :: es) a
  | record {r : LogRecord} {next : Procedure α} {es : List Exchange} {a : α}
      (rest : Reaches next es a) : Reaches (.record r next) es a
  | configure {log : Logging} {next : Procedure α} {es : List Exchange} {a : α}
      (rest : Reaches next es a) : Reaches (.configure log next) es a
  | clock {next : Int → Procedure α} {es : List Exchange} {a : α} (t : Int)
      (rest : Reaches (next t) es a) : Reaches (.clock next) es a

/-- A run reaches its result with its exchanges. -/
theorem reaches_run (server : Server σ) (p : Procedure α) (s : σ) (c : Clock) :
    Reaches p (p.exchanges server s c) (p.run server s c).result := by
  induction p generalizing s c with
  | done a => exact .done a
  | call q next ih =>
      simp only [exchanges, run, Outcome.after]
      rcases server.answer q s with ⟨answer, t⟩
      cases answer with
      | error f => exact .refused f (ih _ t c)
      | ok a => exact .accepted a (ih _ t c)
  | record r next ih => exact .record (ih s c)
  | configure log next ih => exact .configure (ih s c)
  | clock next ih => exact .clock _ (ih _ s _)

theorem Reaches.of_done {a b : α} {es : List Exchange} (h : Reaches (.done a) es b) :
    es = [] ∧ b = a := by
  cases h
  exact ⟨rfl, rfl⟩

/-- What a composed procedure reaches, its parts reach one after the other. -/
theorem Reaches.of_bind {p : Procedure α} {f : α → Procedure β} {es : List Exchange} {b : β}
    (h : Reaches (p.bind f) es b) :
    ∃ a first later, es = first ++ later ∧ Reaches p first a ∧ Reaches (f a) later b := by
  induction p generalizing es with
  | done a => exact ⟨a, [], es, rfl, .done a, h⟩
  | call q next ih =>
      cases h with
      | accepted answer rest =>
          obtain ⟨a, first, later, rfl, hfirst, hlater⟩ := ih _ rest
          exact ⟨a, _ :: first, later, rfl, .accepted answer hfirst, hlater⟩
      | refused e rest =>
          obtain ⟨a, first, later, rfl, hfirst, hlater⟩ := ih _ rest
          exact ⟨a, _ :: first, later, rfl, .refused e hfirst, hlater⟩
  | record r next ih =>
      cases h with
      | record rest =>
          obtain ⟨a, first, later, rfl, hfirst, hlater⟩ := ih rest
          exact ⟨a, first, later, rfl, .record hfirst, hlater⟩
  | configure log next ih =>
      cases h with
      | configure rest =>
          obtain ⟨a, first, later, rfl, hfirst, hlater⟩ := ih rest
          exact ⟨a, first, later, rfl, .configure hfirst, hlater⟩
  | clock next ih =>
      cases h with
      | clock t rest =>
          obtain ⟨a, first, later, rfl, hfirst, hlater⟩ := ih t rest
          exact ⟨a, first, later, rfl, .clock t hfirst, hlater⟩

/-- Records before a procedure change nothing in what it reaches. -/
theorem Reaches.of_writing {records : List LogRecord} {p : Procedure α} {es : List Exchange} {a : α}
    (h : Reaches (writing records p) es a) : Reaches p es a := by
  induction records with
  | nil => exact h
  | cons r rest ih =>
      cases h with
      | record rest => exact ih rest

/-- The calls with which a result is reached are calls that the procedure can make. -/
theorem Sends.of_reaches {allowed : Request → Prop} {p : Procedure α} {es : List Exchange} {a : α}
    (hp : Sends allowed p) (h : Reaches p es a) : ∀ e ∈ es, allowed e.request := by
  induction h with
  | done a => nofun
  | accepted answer rest ih => exact List.forall_mem_cons.mpr ⟨hp.1, ih (hp.2 _)⟩
  | refused f rest ih => exact List.forall_mem_cons.mpr ⟨hp.1, ih (hp.2 _)⟩
  | record rest ih => exact ih hp
  | configure rest ih => exact ih hp
  | clock t rest ih => exact ih (hp t)

end Procedure

/-- The calls of a course are those that it attempts. -/
theorem sends_enact {allowed : Request → Prop} {next : Procedure (Except Failure α)}
    (hnext : Procedure.Sends allowed next) {course : List Stage}
    (hcourse : ∀ q, .ok q ∈ Stage.requests course → allowed q) :
    Procedure.Sends allowed (enact next course) := by
  induction course with
  | nil => exact hnext
  | cons stage rest ih =>
      cases stage with
      | record r => exact ih hcourse
      | attempt request report =>
          cases request with
          | error f => trivial
          | ok q =>
              refine ⟨hcourse q List.mem_cons_self, ?_⟩
              rintro (f | a)
              · trivial
              · exact ih fun q hq => hcourse q (List.mem_cons_of_mem _ hq)

namespace Action

/-- With these exchanges the action can come to this result and to this state of
the seeder. -/
def Leads (action : Action α) (x : Seeder) (es : List Exchange) (r : Except Failure α)
    (y : Seeder) : Prop :=
  Procedure.Reaches (action.run x) es (r, y)

/-- The exchanges of an action against a server. -/
def exchanges (server : Server σ) (action : Action α) (x : Seeder) (s : σ) (c : Clock) :
    List Exchange :=
  Procedure.exchanges server (action.run x) s c

section

variable {action : Action α} {x y z : Seeder} {es : List Exchange}

/-- What comes of an action is something that it leads to. -/
theorem leads_outcome (server : Server σ) (action : Action α) (x : Seeder) (s : σ) (c : Clock) :
    Leads action x (exchanges server action x s c) (outcome server action x s c).result.1
      (outcome server action x s c).result.2 :=
  Procedure.reaches_run server (action.run x) s c

/-- **An action after an action** is led to by the first one alone, if that
fails, and else by one after the other. -/
theorem Leads.of_bind {f : α → Action β} {r : Except Failure β}
    (h : Leads (action >>= f) x es r z) :
    (∃ e, r = .error e ∧ Leads action x es (.error e) z) ∨
      ∃ a y first later, es = first ++ later ∧ Leads action x first (.ok a) y ∧
        Leads (f a) y later r z := by
  unfold Leads at h
  rw [run_bind] at h
  obtain ⟨⟨e | a, y⟩, first, later, rfl, hfirst, hlater⟩ := h.of_bind
  · cases hlater
    rw [List.append_nil]
    exact Or.inl ⟨e, rfl, hfirst⟩
  · exact Or.inr ⟨a, y, first, later, rfl, hfirst, hlater⟩

theorem Leads.of_pure {a : α} {r : Except Failure α} (h : Leads (pure a) x es r y) :
    es = [] ∧ r = .ok a ∧ y = x := by
  cases h
  exact ⟨rfl, rfl, rfl⟩

theorem Leads.of_state {r : Except Failure Seeder} (h : Leads state x es r y) :
    es = [] ∧ r = .ok x ∧ y = x := by
  cases h
  exact ⟨rfl, rfl, rfl⟩

theorem Leads.of_update {change : Seeder → Seeder} {r : Except Failure Unit}
    (h : Leads (update change) x es r y) : es = [] ∧ y = change x := by
  cases h
  exact ⟨rfl, rfl⟩

theorem Leads.of_fail {f : Failure} {r : Except Failure α} (h : Leads (fail f) x es r y) :
    es = [] ∧ y = x := by
  cases h
  exact ⟨rfl, rfl⟩

theorem Leads.of_writeAll {records : List LogRecord} {r : Except Failure Unit}
    (h : Leads (writeAll records) x es r y) : es = [] ∧ r = .ok () ∧ y = x := by
  unfold Leads at h
  rw [run_writeAll] at h
  cases h.of_writing
  exact ⟨rfl, rfl, rfl⟩

/-- A job leaves the seeder as it is. -/
theorem Leads.of_ofJob {job : Job α} {r : Except Failure α} (h : Leads (ofJob job) x es r y) :
    Procedure.Reaches job.run es r ∧ y = x := by
  obtain ⟨result, first, later, rfl, hfirst, hlater⟩ := Procedure.Reaches.of_bind h
  cases hlater
  rw [List.append_nil]
  exact ⟨hfirst, rfl⟩

theorem Leads.of_ofExcept {e r : Except Failure α} (h : Leads (ofJob (Job.ofExcept e)) x es r y) :
    es = [] ∧ r = e ∧ y = x := by
  obtain ⟨hjob, rfl⟩ := h.of_ofJob
  cases hjob
  exact ⟨rfl, rfl, rfl⟩

theorem Leads.of_request {q : Request} {r : Except Failure q.Answer}
    (h : Leads (ofJob (Job.request q)) x es r y) :
    y = x ∧ ((∃ a, r = .ok a ∧ es = [⟨q, true⟩]) ∨ ∃ f, r = .error f ∧ es = [⟨q, false⟩]) := by
  obtain ⟨hjob, rfl⟩ := h.of_ofJob
  refine ⟨rfl, ?_⟩
  cases hjob with
  | accepted answer rest =>
      cases rest
      exact Or.inl ⟨answer, rfl, rfl⟩
  | refused f rest =>
      cases rest
      exact Or.inr ⟨f, rfl, rfl⟩

/-- A call that is refused ends what was to follow. -/
theorem Leads.of_request_bind {q : Request} {f : q.Answer → Action β} {r : Except Failure β}
    (h : Leads (ofJob (Job.request q) >>= f) x es r y) :
    (∃ e, r = .error e ∧ es = [⟨q, false⟩] ∧ y = x) ∨
      ∃ a later, es = ⟨q, true⟩ :: later ∧ Leads (f a) x later r y := by
  obtain ⟨e, rfl, hrequest⟩ | ⟨a, z, first, later, rfl, hrequest, hrest⟩ := h.of_bind
  · obtain ⟨rfl, ⟨a, ha, -⟩ | ⟨g, -, rfl⟩⟩ := hrequest.of_request
    · cases ha
    · exact Or.inl ⟨e, rfl, rfl, rfl⟩
  · obtain ⟨rfl, ⟨a', -, rfl⟩ | ⟨g, hg, -⟩⟩ := hrequest.of_request
    · exact Or.inr ⟨a, later, rfl, hrest⟩
    · cases hg

/-- The present state, and what is done with it. -/
theorem Leads.of_state_bind {f : Seeder → Action α} {r : Except Failure α}
    (h : Leads (state >>= f) x es r y) : Leads (f x) x es r y := by
  obtain ⟨e, -, hstate⟩ | ⟨a, z, first, later, rfl, hstate, hrest⟩ := h.of_bind
  · cases hstate
  · obtain ⟨rfl, ha, rfl⟩ := hstate.of_state
    cases ha
    exact hrest

/-- What comes of an action that is attempted is what it leads to. -/
theorem Leads.of_attempt {r : Except Failure (Except Failure α)}
    (h : Leads (attempt action) x es r y) :
    ∃ result, r = .ok result ∧ Leads action x es result y := by
  obtain ⟨⟨result, z⟩, first, later, rfl, hfirst, hlater⟩ := Procedure.Reaches.of_bind h
  cases hlater
  rw [List.append_nil]
  exact ⟨result, rfl, hfirst⟩

/-- An action without its result leads to the same. -/
theorem Leads.of_discard {r : Except Failure Unit} (h : Leads (Functor.discard action) x es r y) :
    ∃ result, Leads action x es result y := by
  have hbind : Functor.discard action = action >>= fun _ => Pure.pure () := rfl
  rw [hbind] at h
  obtain ⟨e, -, hfirst⟩ | ⟨a, z, first, later, rfl, hfirst, hlater⟩ := h.of_bind
  · exact ⟨.error e, hfirst⟩
  · obtain ⟨rfl, -, rfl⟩ := hlater.of_pure
    rw [List.append_nil]
    exact ⟨.ok a, hfirst⟩

end

end Action

end InitialLoad
