import InitialLoad.Server.Procedure

/-!
# Runs of procedures

How the run of a composed procedure comes from the runs of its parts, for any
server: the second part starts in the state and at the clock that the first one
left, and its events follow.

`Sends` bounds the calls that a procedure can make, whatever the server answers.
It is the form in which a property of single calls reaches whole runs:
`Sends.preserves` carries an invariant of the server's state through a run from
the calls that keep it.
-/

namespace InitialLoad

variable {σ α β : Type}

/-- The outcome with events before the others. -/
def Outcome.afterAll (events : List Event) (o : Outcome σ α) : Outcome σ α :=
  { o with events := events ++ o.events }

namespace Event

@[simp] theorem calls_nil : calls [] = [] := rfl

@[simp] theorem calls_append (xs ys : List Event) : calls (xs ++ ys) = calls xs ++ calls ys := by
  simp [calls]

@[simp] theorem calls_cons_call (q : Request) (rest : List Event) :
    calls (.call q :: rest) = q :: calls rest := rfl

@[simp] theorem calls_cons_record (r : LogRecord) (rest : List Event) :
    calls (.record r :: rest) = calls rest := rfl

@[simp] theorem calls_cons_configured (log : Logging) (rest : List Event) :
    calls (.configured log :: rest) = calls rest := rfl

@[simp] theorem records_nil : records [] = [] := rfl

@[simp] theorem records_append (xs ys : List Event) :
    records (xs ++ ys) = records xs ++ records ys := by
  simp [records]

@[simp] theorem records_cons_call (q : Request) (rest : List Event) :
    records (.call q :: rest) = records rest := rfl

@[simp] theorem records_cons_record (r : LogRecord) (rest : List Event) :
    records (.record r :: rest) = r :: records rest := rfl

@[simp] theorem records_cons_configured (log : Logging) (rest : List Event) :
    records (.configured log :: rest) = records rest := rfl

@[simp] theorem calls_map_record (records : List LogRecord) : calls (records.map .record) = [] := by
  induction records with
  | nil => rfl
  | cons r rest ih => exact ih

@[simp] theorem records_map_record (rs : List LogRecord) : records (rs.map .record) = rs := by
  induction rs with
  | nil => rfl
  | cons r rest ih => exact congrArg (r :: ·) ih

end Event

namespace Procedure

/-- The second procedure goes on where the first one stopped. -/
theorem run_bind (server : Server σ) (p : Procedure α) (f : α → Procedure β) (s : σ)
    (c : Clock) :
    run server (p.bind f) s c =
      (run server (f (run server p s c).result) (run server p s c).state
        (run server p s c).clock).afterAll (run server p s c).events := by
  induction p generalizing s c with
  | done a => rfl
  | call q next ih =>
      simp only [bind, run, ih]
      rfl
  | record r next ih =>
      simp only [bind, run, ih]
      rfl
  | configure log next ih =>
      simp only [bind, run, ih]
      rfl
  | clock next ih => simp only [bind, run, ih]

/-- The calls that are answered and not refused while a procedure runs, in order. -/
def accepted (server : Server σ) : Procedure α → σ → Clock → List Request
  | .done _, _, _ => []
  | .call q next, s, c =>
    let rest := accepted server (next (server.answer q s).1) (server.answer q s).2 c
    match (server.answer q s).1 with
    | .ok _ => q :: rest
    | .error _ => rest
  | .record _ next, s, c => accepted server next s c
  | .configure _ next, s, c => accepted server next s c
  | .clock next, s, c => accepted server (next (Clock.read c).1) s (Clock.read c).2

/-- Every call that the procedure can make, whatever is answered, is allowed. -/
def Sends (allowed : Request → Prop) : Procedure α → Prop
  | .done _ => True
  | .call q next => allowed q ∧ ∀ answer, Sends allowed (next answer)
  | .record _ next => Sends allowed next
  | .configure _ next => Sends allowed next
  | .clock next => ∀ t, Sends allowed (next t)

theorem Sends.bind {allowed : Request → Prop} {p : Procedure α} {f : α → Procedure β}
    (hp : Sends allowed p) (hf : ∀ a, Sends allowed (f a)) : Sends allowed (p.bind f) := by
  induction p with
  | done a => exact hf a
  | call q next ih => exact ⟨hp.1, fun answer => ih answer (hp.2 answer)⟩
  | record r next ih => exact ih hp
  | configure log next ih => exact ih hp
  | clock next ih => exact fun t => ih t (hp t)

/-- What every allowed call keeps is kept by a run that makes only such calls. -/
theorem Sends.preserves {allowed : Request → Prop} {server : Server σ} {inv : σ → Prop}
    (step : ∀ q s, allowed q → inv s → inv (server.answer q s).2)
    {p : Procedure α} (hp : Sends allowed p) {s : σ} (hs : inv s) (c : Clock) :
    inv (run server p s c).state := by
  induction p generalizing s c with
  | done a => exact hs
  | call q next ih => exact ih _ (hp.2 _) (step q s hp.1 hs) c
  | record r next ih => exact ih hp hs c
  | configure log next ih => exact ih hp hs c
  | clock next ih => exact ih _ (hp _) hs _

/-- Every procedure makes calls of some kind. -/
theorem sends_any (p : Procedure α) : Sends (fun _ => True) p := by
  induction p with
  | done a => trivial
  | call q next ih => exact ⟨trivial, ih⟩
  | record r next ih => exact ih
  | configure log next ih => exact ih
  | clock next ih => exact ih

end Procedure

namespace Job

/-! ## Calls of a job -/

/-- Every call that the job can make, whatever is answered, is allowed. -/
def Sends (allowed : Request → Prop) (job : Job α) : Prop := Procedure.Sends allowed job.run

namespace Sends

variable {allowed : Request → Prop}

theorem pure (a : α) : Sends allowed (Pure.pure a : Job α) := trivial

theorem fail (f : Failure) : Sends allowed (Job.fail f : Job α) := trivial

theorem ofExcept (e : Except Failure α) : Sends allowed (Job.ofExcept e) := trivial

theorem info (logger message : Text) : Sends allowed (Job.info logger message) := trivial

theorem now : Sends allowed Job.now := fun _ => trivial

theorem request {q : Request} (h : allowed q) : Sends allowed (Job.request q) :=
  ⟨h, fun _ => trivial⟩

theorem bind {job : Job α} {f : α → Job β} (hjob : Sends allowed job)
    (hf : ∀ a, Sends allowed (f a)) : Sends allowed (job >>= f) := by
  refine Procedure.Sends.bind hjob ?_
  intro result
  cases result with
  | error f => trivial
  | ok a => exact hf a

theorem recover {job : Job α} {onFailure : Failure → Job α} (hjob : Sends allowed job)
    (hf : ∀ f, Sends allowed (onFailure f)) : Sends allowed (job.recover onFailure) := by
  refine Procedure.Sends.bind hjob ?_
  intro result
  cases result with
  | error f => exact hf f
  | ok a => trivial

theorem discard {job : Job α} (hjob : Sends allowed job) :
    Sends allowed (Functor.discard job) := by
  refine Procedure.Sends.bind hjob ?_
  intro result
  cases result with
  | error f => trivial
  | ok a => trivial

end Sends

/-! ## How a job ends -/

/-- How a job ends against a server. -/
def outcome (server : Server σ) (job : Job α) (s : σ) (c : Clock) :
    Outcome σ (Except Failure α) :=
  Procedure.run server job.run s c

/-- A job that succeeds hands its result to the next one. -/
theorem outcome_bind_ok {server : Server σ} {job : Job α} {s t : σ} {c d : Clock} {a : α}
    {events : List Event} (f : α → Job β)
    (h : outcome server job s c = ⟨.ok a, events, t, d⟩) :
    outcome server (job >>= f) s c = (outcome server (f a) t d).afterAll events := by
  have hrun := Procedure.run_bind server job.run (ExceptT.bindCont f) s c
  rw [show Procedure.run server job.run s c = ⟨.ok a, events, t, d⟩ from h] at hrun
  exact hrun

/-- A job that fails ends what was to follow. -/
theorem outcome_bind_error {server : Server σ} {job : Job α} {s t : σ} {c d : Clock}
    {failure : Failure} {events : List Event} (f : α → Job β)
    (h : outcome server job s c = ⟨.error failure, events, t, d⟩) :
    outcome server (job >>= f) s c = ⟨.error failure, events, t, d⟩ := by
  have hrun := Procedure.run_bind server job.run (ExceptT.bindCont f) s c
  rw [show Procedure.run server job.run s c = ⟨.error failure, events, t, d⟩ from h] at hrun
  refine Eq.trans hrun ?_
  show Outcome.mk _ (events ++ []) t d = _
  rw [List.append_nil]
  rfl

end Job

end InitialLoad
