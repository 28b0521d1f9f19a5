import InitialLoad.Proofs.Running

/-!
# Laws of failing

A job that stops at the first refused call can fail in two ways: by a failure of its own,
between two calls, or because a call was refused.  A `FailureLaw` says which failures are
meant in either case.  What it says may depend on the calls that were accepted so far and
on the answers to them, the *past* of the job.

`Procedure.Obeys` is the judgment that a procedure follows such a law, with one rule for
each part of which jobs are made, and a condition on the past with which it succeeds.
`Job.Obeys.outcome` is what it means for a run: every call was accepted, or exactly the
last one was not.
-/

namespace InitialLoad

variable {σ α β : Type}

/-- A call that was accepted, with the answer to it. -/
structure Answered where
  request : Request
  answer : request.Answer

/-- The server accepts the calls one after the other, with these answers, which takes it
from one state to another. -/
inductive Answers (server : Server σ) : σ → List Answered → σ → Prop
  | nil (s : σ) : Answers server s [] s
  | cons {q : Request} {answer : q.Answer} {s t u : σ} {rest : List Answered}
      (head : server.answer q s = (.ok answer, t))
      (tail : Answers server t rest u) : Answers server s (⟨q, answer⟩ :: rest) u

namespace Answers

variable {server : Server σ} {s t u v : σ} {xs ys : List Answered} {q : Request} {f : Failure}

/-- The calls determine the answers and the state. -/
theorem unique (hx : Answers server s xs t) (hy : Answers server s ys u)
    (h : xs.map Answered.request = ys.map Answered.request) : xs = ys ∧ t = u := by
  induction hx generalizing ys with
  | nil s =>
      obtain rfl := List.map_eq_nil_iff.mp h.symm
      cases hy
      exact ⟨rfl, rfl⟩
  | cons head tail ih =>
      cases hy with
      | nil => cases h
      | cons head' tail' =>
          obtain ⟨rfl, hrest⟩ := List.cons.inj h
          cases head.symm.trans head'
          obtain ⟨rfl, rfl⟩ := ih tail' hrest
          exact ⟨rfl, rfl⟩

/-- After calls that were accepted, a refused call is not accepted. -/
theorem ne_of_refused (hx : Answers server s xs t)
    (hrefused : server.answer q t = (.error f, v)) (hy : Answers server s ys u) :
    ys.map Answered.request ≠ xs.map Answered.request ++ [q] := by
  intro h
  induction hx generalizing ys with
  | nil s =>
      cases hy with
      | nil => cases h
      | cons head tail =>
          obtain ⟨rfl, -⟩ := List.cons.inj h
          cases head.symm.trans hrefused
  | cons head tail ih =>
      cases hy with
      | nil => cases h
      | cons head' tail' =>
          obtain ⟨rfl, hrest⟩ := List.cons.inj h
          cases head.symm.trans head'
          exact ih hrefused tail' hrest

end Answers

/-- Which failures are a job's own, and how a refused call is reported, after a past. -/
structure FailureLaw where
  raises : List Answered → Failure → Prop
  reports : List Answered → Request → Failure → Failure → Prop

namespace Procedure

/-- After this past the procedure fails by the law, and where it succeeds the condition
on its past and its result holds. -/
def Obeys (law : FailureLaw) (succeeds : List Answered → α → Prop) :
    List Answered → Procedure (Except Failure α) → Prop
  | past, .done (.ok a) => succeeds past a
  | past, .done (.error f) => law.raises past f
  | past, .call q next =>
    (∀ answer, Obeys law succeeds (past ++ [⟨q, answer⟩]) (next (.ok answer))) ∧
      ∀ f, ∃ g, next (.error f) = .done (.error g) ∧ law.reports past q f g
  | past, .record _ next => Obeys law succeeds past next
  | past, .configure _ next => Obeys law succeeds past next
  | past, .clock next => ∀ t, Obeys law succeeds past (next t)

theorem Obeys.mono {law : FailureLaw} {succeeds more : List Answered → α → Prop}
    (hmore : ∀ past a, succeeds past a → more past a) {past : List Answered}
    {p : Procedure (Except Failure α)} (h : Obeys law succeeds past p) : Obeys law more past p := by
  induction p generalizing past with
  | done result =>
      cases result with
      | error f => exact h
      | ok a => exact hmore past a h
  | call q next ih => exact ⟨fun answer => ih _ (h.1 answer), h.2⟩
  | record r next ih => exact ih h
  | configure log next ih => exact ih h
  | clock next ih => exact fun t => ih t (h t)

/-- What follows where the procedure succeeds has to obey the law from there on. -/
theorem Obeys.bind {law : FailureLaw} {succeeds : List Answered → β → Prop} {past : List Answered}
    {p : Procedure (Except Failure α)} {f : α → Job β}
    (h : Obeys law (fun now a => Obeys law succeeds now (f a).run) past p) :
    Obeys law succeeds past (p.bind (ExceptT.bindCont f)) := by
  induction p generalizing past with
  | done result => cases result <;> exact h
  | call q next ih =>
      refine ⟨fun answer => ih _ (h.1 answer), ?_⟩
      intro e
      obtain ⟨g, hnext, hreports⟩ := h.2 e
      refine ⟨g, ?_, hreports⟩
      show (next (.error e)).bind _ = _
      rw [hnext]
      rfl
  | record r next ih => exact ih h
  | configure log next ih => exact ih h
  | clock next ih => exact fun t => ih t (h t)

/-- **The run of a procedure that obeys a law.**  Either all its calls are accepted, and
it succeeds or fails by a failure of its own; or all but the last one, which is reported. -/
theorem Obeys.run {law : FailureLaw} {succeeds : List Answered → α → Prop} {past : List Answered}
    {p : Procedure (Except Failure α)} (h : Obeys law succeeds past p) (server : Server σ) (s : σ)
    (c : Clock) :
    let o := p.run server s c
    (∃ now, Answers server s now o.state ∧ Event.calls o.events = now.map Answered.request ∧
        ((∃ a, o.result = .ok a ∧ succeeds (past ++ now) a) ∨
          ∃ g, o.result = .error g ∧ law.raises (past ++ now) g)) ∨
      ∃ now q t f g, Answers server s now t ∧ server.answer q t = (.error f, o.state) ∧
        Event.calls o.events = now.map Answered.request ++ [q] ∧ o.result = .error g ∧
        law.reports (past ++ now) q f g := by
  -- The past grows by each call that is accepted, so the rest of the run is told from there.
  induction p generalizing past s c with
  | done result =>
      refine Or.inl ⟨[], .nil s, rfl, ?_⟩
      rw [List.append_nil]
      cases result with
      | error f => exact Or.inr ⟨f, rfl, h⟩
      | ok a => exact Or.inl ⟨a, rfl, h⟩
  | call q next ih =>
      rcases hanswer : server.answer q s with ⟨f | a, t⟩
      · obtain ⟨g, hnext, hreports⟩ := h.2 f
        refine Or.inr ⟨[], q, s, f, g, .nil s, ?_, ?_, ?_, by rwa [List.append_nil]⟩ <;>
          simp [Procedure.run, Outcome.after, hanswer, hnext]
      · have hrest := ih _ (h.1 a) t c
        simp only [List.append_assoc, List.cons_append, List.nil_append] at hrest
        simp only [Procedure.run, Outcome.after, hanswer, Event.calls_cons_call]
        rcases hrest with ⟨now, hnow, hcalls, hend⟩ |
          ⟨now, q', t', f, g, hnow, hrefused, hcalls, hresult, hreports⟩
        · exact Or.inl ⟨⟨q, a⟩ :: now, .cons hanswer hnow, by rw [hcalls]; rfl, hend⟩
        · exact Or.inr ⟨⟨q, a⟩ :: now, q', t', f, g, .cons hanswer hnow, hrefused,
            by rw [hcalls]; rfl, hresult, hreports⟩
  | record r next ih => exact ih h s c
  | configure log next ih => exact ih h s c
  | clock next ih => exact ih _ (h _) s _

end Procedure

namespace Job

/-- After this past the job fails by the law, and where it succeeds the condition on its
past and its result holds. -/
def Obeys (law : FailureLaw) (past : List Answered) (job : Job α)
    (succeeds : List Answered → α → Prop) : Prop :=
  Procedure.Obeys law succeeds past job.run

namespace Obeys

variable {law : FailureLaw} {past : List Answered}

theorem pure {a : α} {succeeds : List Answered → α → Prop} (h : succeeds past a) :
    Obeys law past (Pure.pure a) succeeds := h

theorem fail {f : Failure} {succeeds : List Answered → α → Prop} (h : law.raises past f) :
    Obeys law past (Job.fail f) succeeds := h

theorem ofExcept {e : Except Failure α} (h : ∀ f, e = .error f → law.raises past f) :
    Obeys law past (Job.ofExcept e) fun now a => now = past ∧ e = .ok a := by
  cases e with
  | error f => exact h f rfl
  | ok a => exact ⟨rfl, rfl⟩

theorem info (logger message : Text) :
    Obeys law past (Job.info logger message) fun now _ => now = past := rfl

theorem now : Obeys law past Job.now fun now _ => now = past := fun _ => rfl

/-- A call whose refusal is reported as `report` puts it. -/
theorem call {q : Request} {report : Failure → Failure}
    (h : ∀ f, law.reports past q f (report f)) :
    Obeys law past ((Job.request q).recover fun f => Job.fail (report f)) fun now a =>
      now = past ++ [⟨q, a⟩] :=
  ⟨fun _ => rfl, fun f => ⟨report f, rfl, h f⟩⟩

/-- A call whose refusal is passed on. -/
theorem request {q : Request} (h : ∀ f, law.reports past q f f) :
    Obeys law past (Job.request q) fun now a => now = past ++ [⟨q, a⟩] :=
  ⟨fun _ => rfl, fun f => ⟨f, rfl, h f⟩⟩

theorem bind {job : Job α} {f : α → Job β} {between : List Answered → α → Prop}
    {succeeds : List Answered → β → Prop} (hjob : Obeys law past job between)
    (hf : ∀ now a, between now a → Obeys law now (f a) succeeds) :
    Obeys law past (job >>= f) succeeds :=
  Procedure.Obeys.bind (hjob.mono hf)

theorem mono {job : Job α} {succeeds more : List Answered → α → Prop}
    (h : Obeys law past job succeeds) (hmore : ∀ now a, succeeds now a → more now a) :
    Obeys law past job more :=
  Procedure.Obeys.mono hmore h

theorem discard {job : Job α} (h : Obeys law past job fun _ _ => True) :
    Obeys law past (Functor.discard job) fun _ _ => True :=
  bind (f := fun _ => Pure.pure ()) h fun _ _ _ => trivial

end Obeys

end Job

end InitialLoad
