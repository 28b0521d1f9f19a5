import InitialLoad.Logging
import InitialLoad.Server.Request

/-!
# Procedures

A `Procedure` is a course of action against a server: it calls and goes on with
the answer or the failure, writes to the log, reads the clock, and ends with a
result.  It is data, so that it can be run against any server, call by call.

`Procedure.run` gives the result with the list of events in the order in which
they happened, and the state in which the server and the clock were left.
`Job` is a procedure that may fail.
-/

namespace InitialLoad

/-- A course of action that ends with a result. -/
inductive Procedure (α : Type) where
  | done (result : α)
  | call (request : Request) (next : Except Failure request.Answer → Procedure α)
  | record (entry : LogRecord) (next : Procedure α)
  | configure (log : Logging) (next : Procedure α)
  | clock (next : Int → Procedure α)

namespace Procedure

variable {α β : Type}

/-- One procedure after another. -/
def bind (f : α → Procedure β) : Procedure α → Procedure β
  | .done a => f a
  | .call q next => .call q fun answer => bind f (next answer)
  | .record r next => .record r (bind f next)
  | .configure log next => .configure log (bind f next)
  | .clock next => .clock fun t => bind f (next t)

instance : Monad Procedure where
  pure := .done
  bind p f := p.bind f

theorem bind_done (p : Procedure α) : p.bind .done = p := by
  induction p with
  | done a => rfl
  | call q next ih => simp only [bind, ih]
  | record r next ih => simp only [bind, ih]
  | configure log next ih => simp only [bind, ih]
  | clock next ih => simp only [bind, ih]

theorem bind_assoc {γ : Type} (p : Procedure α) (f : α → Procedure β) (g : β → Procedure γ) :
    (p.bind f).bind g = p.bind fun a => (f a).bind g := by
  induction p with
  | done a => rfl
  | call q next ih => simp only [bind, ih]
  | record r next ih => simp only [bind, ih]
  | configure log next ih => simp only [bind, ih]
  | clock next ih => simp only [bind, ih]

instance : LawfulMonad Procedure :=
  LawfulMonad.mk' Procedure (fun p => bind_done p) (fun _ _ => rfl) (fun p f g => bind_assoc p f g)

end Procedure

/-- A clock by its coming readings, in microseconds; the last one repeats. -/
abbrev Clock := List Int

/-- The present reading, and the clock afterwards. -/
def Clock.read : Clock → Int × Clock
  | [] => (0, [])
  | [t] => (t, [t])
  | t :: rest => (t, rest)

/-- Something that happened while a procedure ran. -/
inductive Event where
  | call (request : Request)
  | record (entry : LogRecord)
  | configured (log : Logging)

namespace Event

/-- The call, if the event is one. -/
def call? : Event → Option Request
  | .call q => some q
  | _ => none

/-- The log record, if the event is one. -/
def record? : Event → Option LogRecord
  | .record r => some r
  | _ => none

/-- The calls among the events, in order. -/
def calls (events : List Event) : List Request := events.filterMap call?

/-- The log records among the events, in order. -/
def records (events : List Event) : List LogRecord := events.filterMap record?

/-- The lines that the events put into the log of a process, at the time `stamp`. -/
def written (stamp : Text) : Logging → List Event → List Text
  | _, [] => []
  | log, .record r :: rest => log.lines stamp r ++ written stamp log rest
  | _, .configured log :: rest => written stamp log rest
  | log, .call _ :: rest => written stamp log rest

end Event

/-- A server by its answers: the answer to a call, and the state afterwards. -/
structure Server (σ : Type) where
  answer : (request : Request) → σ → Except Failure request.Answer × σ

/-- How a run ended: its result, what happened, and what was left. -/
structure Outcome (σ α : Type) where
  result : α
  events : List Event
  state : σ
  clock : Clock

/-- The outcome with one more event before the others. -/
def Outcome.after {σ α : Type} (event : Event) (o : Outcome σ α) : Outcome σ α :=
  { o with events := event :: o.events }

/-- Runs a procedure against a server. -/
def Procedure.run {σ α : Type} (server : Server σ) :
    Procedure α → σ → Clock → Outcome σ α
  | .done a, s, c => ⟨a, [], s, c⟩
  | .call q next, s, c =>
    (run server (next (server.answer q s).1) (server.answer q s).2 c).after (.call q)
  | .record r next, s, c => (run server next s c).after (.record r)
  | .configure log next, s, c => (run server next s c).after (.configured log)
  | .clock next, s, c => run server (next (Clock.read c).1) s (Clock.read c).2

/-- A procedure that may fail. -/
abbrev Job (α : Type) := ExceptT Failure Procedure α

namespace Job

variable {α : Type}

/-- Makes a call; its failure is the job's. -/
def request (q : Request) : Job q.Answer := ExceptT.mk (.call q .done)

/-- Fails. -/
def fail (f : Failure) : Job α := ExceptT.mk (.done (.error f))

/-- What a calculation gave, or its failure. -/
def ofExcept (e : Except Failure α) : Job α := ExceptT.mk (.done e)

/-- Writes a record of level info. -/
def info (logger message : Text) : Job Unit :=
  ExceptT.mk (.record ⟨.info, logger, message⟩ (.done (.ok ())))

/-- Reads the clock. -/
def now : Job Int := ExceptT.mk (.clock fun t => .done (.ok t))

/-- Does the job, and if it fails continues with what `onFailure` makes of it. -/
def recover (job : Job α) (onFailure : Failure → Job α) : Job α :=
  ExceptT.mk (job.run.bind fun
    | .ok a => .done (.ok a)
    | .error f => (onFailure f).run)

end Job

end InitialLoad
