import InitialLoad.Proofs.Running

/-!
# Courses: jobs that stop at the first failure

Most jobs make their calls in an order that is fixed from the start, write
records in between, and end at the first call that fails.  Such a job follows a
*course*: a list of stages, each a record or an attempt at a call.  What comes
of a course is computed by `perform`, without a procedure and without a result
that is handed on.

A course either completes or stops with a failure; `Completes` and `Stops` say
so and compose along a course.  `perform_cases` is the law of a course: the
calls that were accepted, the one attempt that ended it, and the records that
stand before that attempt.

A job `Enacts` a course when it is that course call by call, for then it can be
stopped and resumed between any two stages; what comes of it in one go is said by
`Follows`.  `Enacts.bind` composes courses, so the course of a job is found by
walking through its definition.
-/

namespace InitialLoad

variable {σ α β : Type}

/-- A stage of a course: a record, or an attempt at a call.  The call may turn
out to be impossible to form, and a refusal may be reported in other words. -/
inductive Stage where
  | record (entry : LogRecord)
  | attempt (request : Except Failure Request) (report : Failure → Failure)

namespace Stage

/-- The call that a stage attempts. -/
def request? : Stage → Option (Except Failure Request)
  | .record _ => none
  | .attempt request _ => some request

/-- The calls that a course attempts, in order. -/
def requests (course : List Stage) : List (Except Failure Request) := course.filterMap request?

@[simp] theorem requests_nil : requests [] = [] := rfl

@[simp] theorem requests_cons_record (r : LogRecord) (rest : List Stage) :
    requests (.record r :: rest) = requests rest := rfl

@[simp] theorem requests_cons_attempt (request : Except Failure Request)
    (report : Failure → Failure) (rest : List Stage) :
    requests (.attempt request report :: rest) = request :: requests rest := rfl

@[simp] theorem requests_append (xs ys : List Stage) :
    requests (xs ++ ys) = requests xs ++ requests ys := by
  simp [requests]

/-- The records of a course that stand before the attempt with this number. -/
def recordsBefore : Nat → List Stage → List LogRecord
  | _, [] => []
  | n, .record r :: rest => r :: recordsBefore n rest
  | 0, .attempt _ _ :: _ => []
  | n + 1, .attempt _ _ :: rest => recordsBefore n rest

end Stage

/-- What came of a course: the failure that ended it, if one did, what
happened, and the state that was left. -/
structure Progress (σ : Type) where
  failure : Option Failure
  events : List Event
  state : σ

namespace Progress

/-- The progress with events before the others. -/
def afterAll (events : List Event) (p : Progress σ) : Progress σ :=
  { p with events := events ++ p.events }

/-- The outcome of a job that makes this progress and gives `a` when nothing fails. -/
def outcome (a : α) (c : Clock) (p : Progress σ) : Outcome σ (Except Failure α) :=
  ⟨match p.failure with
    | none => .ok a
    | some f => .error f, p.events, p.state, c⟩

end Progress

/-- Performs a course against a server, up to the first failure. -/
def perform (server : Server σ) : List Stage → σ → Progress σ
  | [], s => ⟨none, [], s⟩
  | .record r :: rest, s => (perform server rest s).afterAll [.record r]
  | .attempt (.error f) _ :: _, s => ⟨some f, [], s⟩
  | .attempt (.ok q) report :: rest, s =>
    match server.answer q s with
    | (.ok _, t) => (perform server rest t).afterAll [.call q]
    | (.error f, t) => ⟨some (report f), [.call q], t⟩

/-- A course after a course that was completed goes on; after one that was not
it is not begun. -/
theorem perform_append (server : Server σ) (xs ys : List Stage) (s : σ) :
    perform server (xs ++ ys) s =
      match (perform server xs s).failure with
      | none =>
        (perform server ys (perform server xs s).state).afterAll (perform server xs s).events
      | some _ => perform server xs s := by
  induction xs generalizing s with
  | nil => rfl
  | cons stage rest ih =>
      cases stage with
      | record r =>
          simp only [List.cons_append, perform, ih, Progress.afterAll]
          split <;> simp
      | attempt request report =>
          cases request with
          | error f => rfl
          | ok q =>
              simp only [List.cons_append, perform]
              rcases h : server.answer q s with ⟨answer, t⟩
              cases answer with
              | error f => rfl
              | ok a =>
                  simp only [ih, Progress.afterAll]
                  split <;> simp

/-! ## Ends of a course -/

/-- Every stage of the course is completed, and the state afterwards. -/
def Completes (server : Server σ) (course : List Stage) (s t : σ) : Prop :=
  (perform server course s).failure = none ∧ (perform server course s).state = t

/-- A failure ends the course, and the state afterwards. -/
def Stops (server : Server σ) (course : List Stage) (s : σ) (f : Failure) (t : σ) : Prop :=
  (perform server course s).failure = some f ∧ (perform server course s).state = t

section

variable {server : Server σ} {xs ys : List Stage} {s t u : σ} {f : Failure}

theorem Completes.nil (s : σ) : Completes server [] s s := ⟨rfl, rfl⟩

theorem Completes.record (r : LogRecord) (s : σ) : Completes server [.record r] s s := ⟨rfl, rfl⟩

/-- An attempt is completed exactly when its call is accepted. -/
theorem completes_attempt_iff {q : Request} {report : Failure → Failure} :
    Completes server [.attempt (.ok q) report] s t ↔ ∃ a, server.answer q s = (.ok a, t) := by
  simp only [Completes, perform]
  rcases server.answer q s with ⟨answer, u⟩
  cases answer with
  | error f => simp
  | ok a => simp [Progress.afterAll]

/-- It stops the course when its call is refused. -/
theorem stops_attempt {q : Request} (h : server.answer q s = (.error f, t))
    (report : Failure → Failure) :
    Stops server [.attempt (.ok q) report] s (report f) t := by
  simp [Stops, perform, h]

theorem Completes.append (hx : Completes server xs s t) (hy : Completes server ys t u) :
    Completes server (xs ++ ys) s u := by
  unfold Completes at *
  simp only [perform_append, hx.1, hx.2]
  exact hy

theorem Completes.append_stops (hx : Completes server xs s t) (hy : Stops server ys t f u) :
    Stops server (xs ++ ys) s f u := by
  unfold Completes Stops at *
  simp only [perform_append, hx.1, hx.2]
  exact hy

theorem completes_append_iff :
    Completes server (xs ++ ys) s u ↔ ∃ t, Completes server xs s t ∧ Completes server ys t u := by
  unfold Completes
  rw [perform_append]
  cases hx : (perform server xs s).failure with
  | none => simp [Progress.afterAll]
  | some f => simp [hx]

theorem Stops.append (hx : Stops server xs s f t) (ys : List Stage) :
    Stops server (xs ++ ys) s f t := by
  unfold Stops at *
  simp only [perform_append, hx.1]
  exact ⟨trivial, hx.2⟩

/-- What every call of a course keeps is kept when the course is completed. -/
theorem Completes.preserves (inv : σ → Prop)
    (step : ∀ q, .ok q ∈ Stage.requests xs → ∀ s, inv s → inv (server.answer q s).2)
    (h : Completes server xs s t) (hs : inv s) : inv t := by
  induction xs generalizing s with
  | nil =>
      obtain ⟨-, rfl⟩ := h
      exact hs
  | cons stage rest ih =>
      cases stage with
      | record r => exact ih step h hs
      | attempt request report =>
          cases request with
          | error f => cases h.1
          | ok q =>
              have hq := step q List.mem_cons_self s hs
              rcases hanswer : server.answer q s with ⟨answer, next⟩
              rw [hanswer] at hq
              simp only [Completes, perform, hanswer] at h
              cases answer with
              | error f => cases h.1
              | ok a => exact ih (fun q hmem => step q (List.mem_cons_of_mem _ hmem)) h hq

end

/-- The server accepts the calls one after the other, which takes it from one
state to another. -/
inductive Accepts (server : Server σ) : σ → List Request → σ → Prop
  | nil (s : σ) : Accepts server s [] s
  | cons {q : Request} {answer : q.Answer} {s t u : σ} {rest : List Request}
      (head : server.answer q s = (.ok answer, t))
      (tail : Accepts server t rest u) : Accepts server s (q :: rest) u

/-- **A course fails fast.**  A number of its calls are accepted, one after the
other.  Either these are all, or the next call cannot be formed, or it is
refused and is the last one made.  The records written are those that stand
before the attempt that ended the course. -/
theorem perform_cases (server : Server σ) (course : List Stage) (s : σ) :
    ∃ (accepted : List Request) (rest : List (Except Failure Request)) (t : σ),
      Stage.requests course = accepted.map .ok ++ rest ∧
      Accepts server s accepted t ∧
      Event.records (perform server course s).events =
        Stage.recordsBefore accepted.length course ∧
      (rest = [] ∧ (perform server course s).failure = none ∧
          Event.calls (perform server course s).events = accepted ∧
          (perform server course s).state = t ∨
        (∃ f tail, rest = .error f :: tail ∧
          (perform server course s).failure = some f ∧
          Event.calls (perform server course s).events = accepted ∧
          (perform server course s).state = t) ∨
        ∃ q f u tail, rest = .ok q :: tail ∧ server.answer q t = (.error f, u) ∧
          (∃ g, (perform server course s).failure = some g) ∧
          Event.calls (perform server course s).events = accepted ++ [q] ∧
          (perform server course s).state = u) := by
  induction course generalizing s with
  | nil => exact ⟨[], [], s, rfl, .nil s, rfl, Or.inl ⟨rfl, rfl, rfl, rfl⟩⟩
  | cons stage course ih =>
      cases stage with
      | record r =>
          obtain ⟨accepted, rest, t, hplan, haccepts, hrecords, hend⟩ := ih s
          exact ⟨accepted, rest, t, hplan, haccepts, congrArg (r :: ·) hrecords, hend⟩
      | attempt request report =>
          cases request with
          | error f =>
              exact ⟨[], _, s, rfl, .nil s, rfl, Or.inr (Or.inl ⟨f, _, rfl, rfl, rfl, rfl⟩)⟩
          | ok q =>
              rcases h : server.answer q s with ⟨answer, t⟩
              cases answer with
              | error f =>
                  refine ⟨[], _, s, rfl, .nil s, ?_, Or.inr (Or.inr ⟨q, f, t, _, rfl, h, ?_⟩)⟩
                  · simp [perform, h, Stage.recordsBefore]
                  · simp [perform, h]
              | ok a =>
                  obtain ⟨accepted, rest, u, hplan, haccepts, hrecords, hend⟩ := ih t
                  refine ⟨q :: accepted, rest, u, by simp [hplan], .cons h haccepts, ?_, ?_⟩
                  · simpa [perform, h, Progress.afterAll, Stage.recordsBefore] using hrecords
                  · simpa [perform, h, Progress.afterAll] using hend

/-- The job makes the progress of the course against every server, and gives
`a` when nothing fails. -/
def Follows (job : Job α) (course : List Stage) (a : α) : Prop :=
  ∀ (σ : Type) (server : Server σ) (s : σ) (c : Clock),
    Job.outcome server job s c = (perform server course s).outcome a c

/-! ## Courses as procedures -/

/-- The procedure that does a course and, when nothing fails, goes on with `next`. -/
def enact (next : Procedure (Except Failure α)) : List Stage → Procedure (Except Failure α)
  | [] => next
  | .record r :: rest => .record r (enact next rest)
  | .attempt (.error f) _ :: _ => .done (.error f)
  | .attempt (.ok q) report :: rest => .call q fun
    | .ok _ => enact next rest
    | .error f => .done (.error (report f))

theorem enact_append (next : Procedure (Except Failure α)) (xs ys : List Stage) :
    enact next (xs ++ ys) = enact (enact next ys) xs := by
  induction xs with
  | nil => rfl
  | cons stage rest ih =>
      cases stage with
      | record r => simp only [List.cons_append, enact, ih]
      | attempt request report =>
          cases request with
          | error f => rfl
          | ok q => simp only [List.cons_append, enact, ih]

/-- What follows a course follows the procedure after it. -/
theorem enact_bind (f : α → Job β) (next : Procedure (Except Failure α)) (course : List Stage) :
    (enact next course).bind (ExceptT.bindCont f) =
      enact (next.bind (ExceptT.bindCont f)) course := by
  induction course with
  | nil => rfl
  | cons stage rest ih =>
      cases stage with
      | record r => simp only [enact, Procedure.bind, ih]
      | attempt request report =>
          cases request with
          | error f => rfl
          | ok q =>
              simp only [enact, Procedure.bind, Procedure.call.injEq, heq_eq_eq, true_and]
              funext answer
              cases answer with
              | error f => rfl
              | ok a => exact ih

/-- What comes of a course done by a procedure: its failure, or what comes of
the procedure after it. -/
theorem run_enact (server : Server σ) (next : Procedure (Except Failure α)) (course : List Stage)
    (s : σ) (c : Clock) :
    Procedure.run server (enact next course) s c =
      match (perform server course s).failure with
      | none => (Procedure.run server next (perform server course s).state c).afterAll
          (perform server course s).events
      | some f =>
        ⟨.error f, (perform server course s).events, (perform server course s).state, c⟩ := by
  induction course generalizing s with
  | nil => rfl
  | cons stage rest ih =>
      cases stage with
      | record r =>
          simp only [enact, Procedure.run, perform, ih, Progress.afterAll]
          split <;> rfl
      | attempt request report =>
          cases request with
          | error f => rfl
          | ok q =>
              simp only [enact, Procedure.run, perform]
              rcases server.answer q s with ⟨answer, t⟩
              cases answer with
              | error f => rfl
              | ok a =>
                  simp only [ih, Progress.afterAll]
                  split <;> rfl

/-- The calls of a course that are accepted are the first ones that it attempts. -/
theorem accepted_enact (server : Server σ) {next : Procedure (Except Failure α)}
    (hnext : ∀ s c, Procedure.accepted server next s c = []) (course : List Stage) (s : σ)
    (c : Clock) :
    (Procedure.accepted server (enact next course) s c).map .ok <+: Stage.requests course := by
  induction course generalizing s with
  | nil => simp [enact, hnext]
  | cons stage rest ih =>
      cases stage with
      | record r => exact ih s
      | attempt request report =>
          cases request with
          | error f => exact List.nil_prefix
          | ok q =>
              simp only [enact, Procedure.accepted, Stage.requests_cons_attempt]
              rcases server.answer q s with ⟨answer, t⟩
              cases answer with
              | error f => exact List.nil_prefix
              | ok a => exact List.cons_prefix_cons.mpr ⟨rfl, ih t⟩

/-- The job is the course, call by call, and gives `a` when nothing fails. -/
def Enacts (job : Job α) (course : List Stage) (a : α) : Prop :=
  job.run = enact (.done (.ok a)) course

namespace Enacts

theorem pure (a : α) : Enacts (Pure.pure a : Job α) [] a := rfl

theorem info (logger message : Text) :
    Enacts (Job.info logger message) [.record ⟨.info, logger, message⟩] () := rfl

theorem fail (f : Failure) (a : α) : Enacts (Job.fail f) [.attempt (.error f) id] a := rfl

/-- A call whose refusal is passed on as it is. -/
theorem request (q : Request) (a : q.Answer) (hanswer : ∀ b : q.Answer, b = a) :
    Enacts (Job.request q) [.attempt (.ok q) id] a := by
  show Procedure.call q .done = .call q _
  congr 1
  funext answer
  cases answer with
  | error f => rfl
  | ok b => rw [hanswer b]; rfl

/-- A call whose refusal is reported in other words. -/
theorem call (q : Request) (a : q.Answer) (hanswer : ∀ b : q.Answer, b = a)
    (report : Failure → Failure) :
    Enacts ((Job.request q).recover fun f => Job.fail (report f)) [.attempt (.ok q) report] a := by
  show Procedure.call q _ = .call q _
  congr 1
  funext answer
  cases answer with
  | error f => rfl
  | ok b => rw [hanswer b]; rfl

/-- What follows a job that is a course follows the course. -/
theorem run_bind {job : Job α} {xs : List Stage} {a : α} (hjob : Enacts job xs a)
    (f : α → Job β) : (job >>= f).run = enact (f a).run xs := by
  show job.run.bind (ExceptT.bindCont f) = _
  rw [show job.run = _ from hjob, enact_bind]
  rfl

/-- One course after another. -/
theorem bind {job : Job α} {f : α → Job β} {xs ys : List Stage} {a : α} {b : β}
    (hjob : Enacts job xs a) (hf : Enacts (f a) ys b) : Enacts (job >>= f) (xs ++ ys) b := by
  unfold Enacts at hf ⊢
  rw [hjob.run_bind f, hf, enact_append]

/-- A job without its result is the same course. -/
theorem discard {job : Job α} {xs : List Stage} {a : α} (hjob : Enacts job xs a) :
    Enacts (Functor.discard job) xs () := by
  have hpure := hjob.bind (f := fun _ => Pure.pure ()) (pure ())
  rw [List.append_nil] at hpure
  exact hpure

/-- A job that is a course makes its progress. -/
theorem follows {job : Job α} {course : List Stage} {a : α} (h : Enacts job course a) :
    Follows job course a := by
  intro σ server s c
  unfold Job.outcome Progress.outcome
  rw [show job.run = _ from h, run_enact]
  cases hfailure : (perform server course s).failure with
  | some f => rfl
  | none => simp [Procedure.run, Outcome.afterAll]

end Enacts

end InitialLoad
