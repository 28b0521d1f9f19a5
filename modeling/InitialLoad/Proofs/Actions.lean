import InitialLoad.Proofs.Course
import InitialLoad.Seeder.State

/-!
# Actions of the seeder

What comes of an action is a result or a failure, and in either case the seeder
that is left.  `Action.outcome_bind_ok` and `Action.outcome_bind_error` compose
outcomes along an action.  `Steady` says what holds of an action whatever the
server answers: the failures it can end with, the records it can write, and what
it keeps of the seeder.  `Along` says which calls it makes: the first ones of a
plan, up to the first failure.
-/

namespace InitialLoad

variable {σ α β : Type}

namespace Procedure

/-- Whatever is answered, as long as failures of calls are admissible, all records
are allowed and the result is as said. -/
def Always (admissible : Failure → Prop) (allowed : LogRecord → Prop) (result : α → Prop) :
    Procedure α → Prop
  | .done a => result a
  | .call _ next => (∀ a, Always admissible allowed result (next (.ok a))) ∧
      ∀ f, admissible f → Always admissible allowed result (next (.error f))
  | .record r next => allowed r ∧ Always admissible allowed result next
  | .configure _ next => Always admissible allowed result next
  | .clock next => ∀ t, Always admissible allowed result (next t)

/-- Records before the rest of a procedure. -/
def writing (records : List LogRecord) (p : Procedure α) : Procedure α := records.foldr .record p

theorem bind_writing (records : List LogRecord) (p : Procedure α) (f : α → Procedure β) :
    (writing records p).bind f = writing records (p.bind f) := by
  induction records with
  | nil => rfl
  | cons r rest ih => exact congrArg (Procedure.record r) ih

theorem run_writing (server : Server σ) (records : List LogRecord) (p : Procedure α) (s : σ)
    (c : Clock) :
    run server (writing records p) s c = (run server p s c).afterAll (records.map .record) := by
  induction records with
  | nil => rfl
  | cons r rest ih =>
      show (run server (writing rest p) s c).after (.record r) = _
      rw [ih]
      rfl

section

variable {admissible : Failure → Prop} {allowed : LogRecord → Prop}

theorem always_writing {result : α → Prop} {records : List LogRecord} {p : Procedure α}
    (hrecords : ∀ r ∈ records, allowed r) (h : Always admissible allowed result p) :
    Always admissible allowed result (writing records p) := by
  induction records with
  | nil => exact h
  | cons r rest ih =>
      exact ⟨hrecords r List.mem_cons_self, ih fun r hr => hrecords r (List.mem_cons_of_mem _ hr)⟩

theorem Always.bind {result : β → Prop} {p : Procedure α} {f : α → Procedure β}
    (h : Always admissible allowed (fun a => Always admissible allowed result (f a)) p) :
    Always admissible allowed result (p.bind f) := by
  induction p with
  | done a => exact h
  | call q next ih => exact ⟨fun a => ih _ (h.1 a), fun f hf => ih _ (h.2 f hf)⟩
  | record r next ih => exact ⟨h.1, ih h.2⟩
  | configure log next ih => exact ih h
  | clock next ih => exact fun t => ih t (h t)

theorem Always.mono {result result' : α → Prop} (hresult : ∀ a, result a → result' a)
    {p : Procedure α} (h : Always admissible allowed result p) :
    Always admissible allowed result' p := by
  induction p with
  | done a => exact hresult a h
  | call q next ih => exact ⟨fun a => ih _ (h.1 a), fun f hf => ih _ (h.2 f hf)⟩
  | record r next ih => exact ⟨h.1, ih h.2⟩
  | configure log next ih => exact ih h
  | clock next ih => exact fun t => ih t (h t)

/-- What always holds holds of every run against a server that fails admissibly. -/
theorem Always.run {server : Server σ} {result : α → Prop}
    (hserver : ∀ q s f t, server.answer q s = (.error f, t) → admissible f) {p : Procedure α}
    (h : Always admissible allowed result p) (s : σ) (c : Clock) :
    result (p.run server s c).result ∧
      ∀ r ∈ Event.records (p.run server s c).events, allowed r := by
  induction p generalizing s c with
  | done a => exact ⟨h, by simp [Procedure.run]⟩
  | call q next ih =>
      rcases hanswer : server.answer q s with ⟨answer, t⟩
      simp only [Procedure.run, Outcome.after, hanswer, Event.records_cons_call]
      cases answer with
      | error f => exact ih _ (h.2 f (hserver q s f t hanswer)) t c
      | ok a => exact ih _ (h.1 a) t c
  | record r next ih =>
      obtain ⟨hresult, hrecords⟩ := ih h.2 s c
      refine ⟨hresult, ?_⟩
      simp only [Procedure.run, Outcome.after, Event.records_cons_record, List.mem_cons,
        forall_eq_or_imp]
      exact ⟨h.1, hrecords⟩
  | configure log next ih => exact ih h s c
  | clock next ih => exact ih _ (h _) s _

end

end Procedure

namespace Job

/-- Whatever is answered, as long as failures of calls are admissible, the
failures of the job are admissible and its records are allowed. -/
def Steady (admissible : Failure → Prop) (allowed : LogRecord → Prop) (job : Job α) : Prop :=
  Procedure.Always admissible allowed (fun r => ∀ f, r = .error f → admissible f) job.run

namespace Steady

variable {admissible : Failure → Prop} {allowed : LogRecord → Prop}

theorem pure (a : α) : Steady admissible allowed (Pure.pure a : Job α) := nofun

theorem ofExcept {e : Except Failure α} (h : ∀ f, e = .error f → admissible f) :
    Steady admissible allowed (Job.ofExcept e) := h

theorem request (q : Request) : Steady admissible allowed (Job.request q) := by
  refine ⟨fun _ => nofun, ?_⟩
  intro f hf g hg
  cases hg
  exact hf

theorem bind {job : Job α} {f : α → Job β} (hjob : Steady admissible allowed job)
    (hf : ∀ a, Steady admissible allowed (f a)) : Steady admissible allowed (job >>= f) := by
  refine Procedure.Always.bind (hjob.mono ?_)
  rintro (e | a) hadmissible
  · intro g hg
    cases hg
    exact hadmissible e rfl
  · exact hf a

end Steady

end Job

/-- Calls that are accepted after others that were. -/
theorem Accepts.append {server : Server σ} {s t u : σ} {xs ys : List Request}
    (hx : Accepts server s xs t) (hy : Accepts server t ys u) : Accepts server s (xs ++ ys) u := by
  induction hx with
  | nil s => exact hy
  | cons head _ ih => exact .cons head (ih hy)

namespace Action

/-! ## How an action ends -/

/-- How an action ends against a server. -/
def outcome (server : Server σ) (action : Action α) (x : Seeder) (s : σ) (c : Clock) :
    Outcome σ (Except Failure α × Seeder) :=
  Procedure.run server (action.run x) s c

/-- One action after another. -/
theorem run_bind (action : Action α) (f : α → Action β) (x : Seeder) :
    (action >>= f).run x = (action.run x).bind fun
      | (.ok a, y) => (f a).run y
      | (.error e, y) => .done (.error e, y) := by
  show (action.run x).bind _ = _
  congr 1
  funext r
  rcases r with ⟨e | a, y⟩ <;> rfl

theorem run_state (x : Seeder) : state.run x = .done (.ok x, x) := rfl

theorem run_writeAll (records : List LogRecord) (x : Seeder) :
    (writeAll records).run x = Procedure.writing records (.done (.ok (), x)) := by
  induction records with
  | nil => rfl
  | cons r rest ih => exact congrArg (Procedure.record r) ih

/-- Two jobs as one action after the other. -/
theorem ofJob_bind (job : Job α) (f : α → Job β) :
    ofJob (job >>= f) = ofJob job >>= fun a => ofJob (f a) := by
  funext x
  show (job.run.bind (ExceptT.bindCont f)).bind _ = (ofJob job >>= fun a => ofJob (f a)).run x
  rw [run_bind, Procedure.bind_assoc]
  show _ = (job.run.bind _).bind _
  rw [Procedure.bind_assoc]
  congr 1
  funext r
  cases r <;> rfl

section

variable {server : Server σ} {action : Action α} {x y : Seeder} {s t : σ} {c d : Clock}
  {events : List Event}

/-- An action that succeeds hands its result and the seeder to the next one. -/
theorem outcome_bind_ok {a : α} (f : α → Action β)
    (h : outcome server action x s c = ⟨(.ok a, y), events, t, d⟩) :
    outcome server (action >>= f) x s c = (outcome server (f a) y t d).afterAll events := by
  unfold outcome at *
  rw [run_bind, Procedure.run_bind, h]

/-- An action that fails ends what was to follow. -/
theorem outcome_bind_error {e : Failure} (f : α → Action β)
    (h : outcome server action x s c = ⟨(.error e, y), events, t, d⟩) :
    outcome server (action >>= f) x s c = ⟨(.error e, y), events, t, d⟩ := by
  unfold outcome at *
  rw [run_bind, Procedure.run_bind, h]
  simp [Procedure.run, Outcome.afterAll]

/-- One action after another succeeds when both do. -/
theorem ok_bind_iff {f : α → Action β} :
    (∃ b, (outcome server (action >>= f) x s c).result.1 = .ok b) ↔
      ∃ a, (outcome server action x s c).result.1 = .ok a ∧
        ∃ b, (outcome server (f a) (outcome server action x s c).result.2
          (outcome server action x s c).state (outcome server action x s c).clock).result.1 =
            .ok b := by
  rcases ho : outcome server action x s c with ⟨⟨e | a, y⟩, events, t, d⟩
  · rw [outcome_bind_error f ho]
    simp
  · rw [outcome_bind_ok f ho]
    simp [Outcome.afterAll]

theorem outcome_pure (a : α) :
    outcome server (pure a) x s c = ⟨(.ok a, x), [], s, c⟩ := rfl

theorem outcome_state : outcome server state x s c = ⟨(.ok x, x), [], s, c⟩ := rfl

/-- A job as an action comes to what the job comes to. -/
theorem outcome_ofJob (job : Job α) :
    outcome server (ofJob job) x s c =
      ⟨((Job.outcome server job s c).result, x), (Job.outcome server job s c).events,
        (Job.outcome server job s c).state, (Job.outcome server job s c).clock⟩ := by
  show Procedure.run server (job.run.bind _) s c = _
  rw [Procedure.run_bind]
  simp [Procedure.run, Outcome.afterAll, Job.outcome]

theorem outcome_request {q : Request} {answer : Except Failure q.Answer}
    (h : server.answer q s = (answer, t)) :
    outcome server (ofJob (Job.request q)) x s c = ⟨(answer, x), [.call q], t, c⟩ := by
  rw [outcome_ofJob]
  simp [Job.outcome, Job.request, Procedure.run, Outcome.after, h]

theorem outcome_writeAll (records : List LogRecord) :
    outcome server (writeAll records) x s c = ⟨(.ok (), x), records.map .record, s, c⟩ := by
  unfold outcome
  rw [run_writeAll, Procedure.run_writing]
  simp [Procedure.run, Outcome.afterAll]

theorem outcome_attempt :
    outcome server (attempt action) x s c =
      ⟨(.ok (outcome server action x s c).result.1, (outcome server action x s c).result.2),
        (outcome server action x s c).events, (outcome server action x s c).state,
        (outcome server action x s c).clock⟩ := by
  show Procedure.run server ((action.run x).bind _) s c = _
  rw [Procedure.run_bind]
  simp [Procedure.run, Outcome.afterAll, outcome]

end

/-! ## What always holds of an action -/

/-- Whatever is answered, as long as failures of calls are admissible: the
failures of the action are admissible, its records are allowed, and it keeps the
property of the seeder. -/
def Steady (admissible : Failure → Prop) (allowed : LogRecord → Prop) (kept : Seeder → Prop)
    (action : Action α) : Prop :=
  ∀ x, kept x → Procedure.Always admissible allowed
    (fun r => (∀ f, r.1 = .error f → admissible f) ∧ kept r.2) (action.run x)

namespace Steady

variable {admissible : Failure → Prop} {allowed : LogRecord → Prop} {kept : Seeder → Prop}

theorem pure (a : α) : Steady admissible allowed kept (Pure.pure a : Action α) :=
  fun _ hx => ⟨nofun, hx⟩

theorem bind {action : Action α} {f : α → Action β}
    (haction : Steady admissible allowed kept action)
    (hf : ∀ a, Steady admissible allowed kept (f a)) :
    Steady admissible allowed kept (action >>= f) := by
  intro x hx
  rw [run_bind]
  refine Procedure.Always.bind ((haction x hx).mono ?_)
  rintro ⟨e | a, y⟩ ⟨hadmissible, hy⟩
  · refine ⟨?_, hy⟩
    intro g hg
    cases hg
    exact hadmissible e rfl
  · exact hf a y hy

theorem state : Steady admissible allowed kept Action.state :=
  fun _ hx => ⟨nofun, hx⟩

theorem ofJob {job : Job α} (h : Job.Steady admissible allowed job) :
    Steady admissible allowed kept (Action.ofJob job) := by
  intro x hx
  refine Procedure.Always.bind (h.mono ?_)
  exact fun r hr => ⟨hr, hx⟩

theorem writeAll {records : List LogRecord} (h : ∀ r ∈ records, allowed r) :
    Steady admissible allowed kept (Action.writeAll records) := by
  intro x hx
  rw [run_writeAll]
  exact Procedure.always_writing h ⟨nofun, hx⟩

end Steady

/-! ## Calls along a plan -/

end Action

/-- The calls of a run are the first ones of a plan, in which a call may turn out
to be impossible to form.  Those before the last one were accepted.  If the run
succeeded all calls of the plan were, and if it failed nothing was called after
the first refusal. -/
def Along (server : Server σ) (s : σ) (plan : List (Except Failure Request))
    (o : Outcome σ (Except Failure α × Seeder)) : Prop :=
  ∃ accepted rest t, plan = accepted.map .ok ++ rest ∧ Accepts server s accepted t ∧
    ((∃ a, o.result.1 = .ok a) ∧ rest = [] ∧ Event.calls o.events = accepted ∧ o.state = t ∨
      (∃ f, o.result.1 = .error f) ∧
        (Event.calls o.events = accepted ∧ o.state = t ∨
          ∃ q g later, rest = .ok q :: later ∧ server.answer q t = (.error g, o.state) ∧
            Event.calls o.events = accepted ++ [q]))

namespace Along

section

variable {server : Server σ} {action : Action α} {x : Seeder} {s : σ} {c : Clock}
  {plan more : List (Except Failure Request)}

/-- A run without calls that succeeds. -/
theorem quiet {a : α} {events : List Event} (hcalls : Event.calls events = []) :
    Along server s [] ⟨(.ok a, x), events, s, c⟩ :=
  ⟨[], [], s, rfl, .nil s, Or.inl ⟨⟨a, rfl⟩, rfl, hcalls, rfl⟩⟩

/-- A run without calls that fails. -/
theorem stuck {f : Failure} {events : List Event} (hcalls : Event.calls events = [])
    (plan : List (Except Failure Request)) :
    Along server s plan (⟨(.error f, x), events, s, c⟩ :
      Outcome σ (Except Failure α × Seeder)) :=
  ⟨[], plan, s, rfl, .nil s, Or.inr ⟨⟨f, rfl⟩, Or.inl ⟨hcalls, rfl⟩⟩⟩

/-- A run that failed along a plan failed along every longer one, whatever it
would have given. -/
theorem append {y : Seeder} {events : List Event} {t : σ} {d : Clock} {f : Failure}
    (h : Along server s plan (⟨(.error f, y), events, t, d⟩ :
      Outcome σ (Except Failure α × Seeder))) (more : List (Except Failure Request)) :
    Along server s (plan ++ more) (⟨(.error f, y), events, t, d⟩ :
      Outcome σ (Except Failure β × Seeder)) := by
  obtain ⟨accepted, rest, u, hplan, haccepts, ⟨⟨a, ha⟩, -⟩ | ⟨-, hend⟩⟩ := h
  · cases ha
  · refine ⟨accepted, rest ++ more, u, by rw [hplan, List.append_assoc], haccepts,
      Or.inr ⟨⟨f, rfl⟩, hend.imp_right ?_⟩⟩
    rintro ⟨q, g, later, rfl, hanswer, hcalls⟩
    exact ⟨q, g, later ++ more, rfl, hanswer, hcalls⟩

/-- Every call is one of the plan. -/
theorem mem_plan {o : Outcome σ (Except Failure α × Seeder)} (h : Along server s plan o)
    {q : Request} (hq : q ∈ Event.calls o.events) : .ok q ∈ plan := by
  obtain ⟨accepted, rest, t, rfl, -, ⟨-, -, hcalls, -⟩ | ⟨-, ⟨hcalls, -⟩ |
    ⟨refused, -, later, rfl, -, hcalls⟩⟩⟩ := h <;> rw [hcalls] at hq
  · exact List.mem_append_left _ (List.mem_map_of_mem hq)
  · exact List.mem_append_left _ (List.mem_map_of_mem hq)
  · rcases List.mem_append.mp hq with hq | hq
    · exact List.mem_append_left _ (List.mem_map_of_mem hq)
    · rw [List.mem_singleton.mp hq]
      exact List.mem_append_right _ List.mem_cons_self

/-- A single call. -/
theorem request (q : Request) :
    Along server s [.ok q] (Action.outcome server (Action.ofJob (Job.request q)) x s c) := by
  rcases hanswer : server.answer q s with ⟨answer, t⟩
  rw [Action.outcome_request hanswer]
  cases answer with
  | error f =>
      exact ⟨[], [.ok q], s, rfl, .nil s,
        Or.inr ⟨⟨f, rfl⟩, Or.inr ⟨q, f, [], rfl, hanswer, rfl⟩⟩⟩
  | ok a => exact ⟨[q], [], t, rfl, .cons hanswer (.nil t), Or.inl ⟨⟨a, rfl⟩, rfl, rfl, rfl⟩⟩

/-- One action after another goes along one plan after the other. -/
theorem bind {f : α → Action β} (h : Along server s plan (Action.outcome server action x s c))
    (hf : ∀ a y events t d, Action.outcome server action x s c = ⟨(.ok a, y), events, t, d⟩ →
      Along server t more (Action.outcome server (f a) y t d)) :
    Along server s (plan ++ more) (Action.outcome server (action >>= f) x s c) := by
  rcases ho : Action.outcome server action x s c with ⟨⟨e | a, y⟩, events, t, d⟩
  · rw [ho] at h
    rw [Action.outcome_bind_error f ho]
    exact h.append more
  · have hnext := hf a y events t d ho
    rw [ho] at h
    rw [Action.outcome_bind_ok f ho]
    obtain ⟨accepted, rest, u, hplan, haccepts, ⟨-, rfl, hcalls, rfl⟩ | ⟨⟨e, he⟩, -⟩⟩ := h
    · obtain ⟨later, rest, v, hmore, hlater, hend⟩ := hnext
      refine ⟨accepted ++ later, rest, v, ?_, haccepts.append hlater, ?_⟩
      · rw [hplan, hmore, List.append_nil, List.map_append, List.append_assoc]
      · simp only [Outcome.afterAll, Event.calls_append]
        rw [show Event.calls events = accepted from hcalls]
        refine hend.imp ?_ (And.imp_right (Or.imp ?_ ?_))
        · rintro ⟨hok, hrest, hlast, hv⟩
          exact ⟨hok, hrest, by rw [hlast], hv⟩
        · rintro ⟨hlast, hv⟩
          exact ⟨by rw [hlast], hv⟩
        · rintro ⟨q, g, tail, hrest, hanswer, hlast⟩
          exact ⟨q, g, tail, hrest, hanswer, by rw [hlast, List.append_assoc]⟩
    · cases he

/-- An action without calls, and one that goes along a plan after it. -/
theorem bind_quiet {f : α → Action β} (h : Along server s [] (Action.outcome server action x s c))
    (hf : ∀ a y events t d, Action.outcome server action x s c = ⟨(.ok a, y), events, t, d⟩ →
      Along server t plan (Action.outcome server (f a) y t d)) :
    Along server s plan (Action.outcome server (action >>= f) x s c) :=
  h.bind hf

/-- An action that goes along a plan, and one without calls after it. -/
theorem quiet_after {f : α → Action β}
    (h : Along server s plan (Action.outcome server action x s c))
    (hf : ∀ a y t d, Along server t [] (Action.outcome server (f a) y t d)) :
    Along server s plan (Action.outcome server (action >>= f) x s c) := by
  have hboth := h.bind fun a y _ t d _ => hf a y t d
  rwa [List.append_nil] at hboth

end

end Along

end InitialLoad
