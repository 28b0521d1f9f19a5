import InitialLoad.Proofs.Running

/-!
# Interleavings

Procedures that run at the same time against one server.  The server answers
each call at once and as a whole, so all that happens is decided by the order in
which the procedures take their turns.  A `Thread` is a procedure under way, a
`World` is a family of threads with the state of their server, and
`World.after` lets the threads take turns by a schedule, which is any list of
their names.

`World.after_preserves` carries an invariant from single turns through every
schedule.  `World.exists_alone` says that turns are nothing but the parts of a
run: a thread that takes its turns one right after the other ends as
`Procedure.run` does.
-/

namespace InitialLoad

variable {σ α ι : Type}

namespace Procedure

/-- The procedure ends in so many turns, whatever is answered. -/
def Within : Procedure α → Nat → Prop
  | .done _, _ => True
  | .call _ next, n + 1 => ∀ answer, Within (next answer) n
  | .record _ next, n + 1 => Within next n
  | .configure _ next, n + 1 => Within next n
  | .clock next, n + 1 => ∀ t, Within (next t) n
  | _, 0 => False

end Procedure

/-- A procedure under way: what is left of it, its clock, and the calls that
have been accepted so far. -/
structure Thread (α : Type) where
  rest : Procedure α
  clock : Clock
  accepted : List Request

namespace Thread

/-- A procedure that has not begun. -/
def start (p : Procedure α) (c : Clock) : Thread α := ⟨p, c, []⟩

/-- How the thread has ended, if it has. -/
def result? (t : Thread α) : Option α :=
  match t.rest with
  | .done a => some a
  | _ => none

/-- A document that the thread inserted has been accepted. -/
def Inserted (t : Thread α) : Prop := ∃ place doc, .insertOne place doc ∈ t.accepted

/-- What the next turn of the thread makes of it and of the state. -/
def turn (server : Server σ) (t : Thread α) (s : σ) : Thread α × σ :=
  match t.rest with
  | .done _ => (t, s)
  | .call q next =>
    match server.answer q s with
    | (.ok a, u) => (⟨next (.ok a), t.clock, t.accepted ++ [q]⟩, u)
    | (.error f, u) => (⟨next (.error f), t.clock, t.accepted⟩, u)
  | .record _ next => ({ t with rest := next }, s)
  | .configure _ next => ({ t with rest := next }, s)
  | .clock next => (⟨next (Clock.read t.clock).1, (Clock.read t.clock).2, t.accepted⟩, s)

/-- What the thread comes to when no other thread takes a turn: its result, its
accepted calls, and the state that is left. -/
def prospect (server : Server σ) (t : Thread α) (s : σ) : α × List Request × σ :=
  ((t.rest.run server s t.clock).result, t.accepted ++ t.rest.accepted server s t.clock,
    (t.rest.run server s t.clock).state)

/-- A turn does what the procedure would do next. -/
theorem prospect_turn (server : Server σ) (t : Thread α) (s : σ) :
    (t.turn server s).1.prospect server (t.turn server s).2 = t.prospect server s := by
  rcases t with ⟨rest, clock, accepted⟩
  cases rest with
  | call q next =>
      rcases hanswer : server.answer q s with ⟨answer, u⟩
      cases answer <;>
        simp [turn, prospect, hanswer, Procedure.run, Outcome.after, Procedure.accepted]
  | _ => rfl

theorem within_turn (server : Server σ) {t : Thread α} {n : Nat} (h : t.rest.Within n) (s : σ) :
    (t.turn server s).1.rest.Within (n - 1) := by
  rcases t with ⟨rest, clock, accepted⟩
  cases rest with
  | done a => trivial
  | call q next =>
      cases n with
      | zero => cases h
      | succ n =>
          simp only [turn]
          rcases server.answer q s with ⟨answer, u⟩
          cases answer <;> exact h _
  | record r next => cases n <;> first | cases h | exact h
  | configure log next => cases n <;> first | cases h | exact h
  | clock next =>
      cases n with
      | zero => cases h
      | succ n => exact h _

theorem ended_of_within {t : Thread α} (h : t.rest.Within 0) : t.result?.isSome = true := by
  rcases t with ⟨rest, clock, accepted⟩
  cases rest with
  | done a => rfl
  | _ => cases h

end Thread

/-- Threads, and the state of the server that they share. -/
structure World (σ ι α : Type) where
  threads : ι → Thread α
  state : σ

namespace World

/-- The procedures before their first turns. -/
def start (procedures : ι → Procedure α) (clocks : ι → Clock) (s : σ) : World σ ι α :=
  ⟨fun i => Thread.start (procedures i) (clocks i), s⟩

variable [DecidableEq ι]

/-- A thread takes a turn. -/
def turn (server : Server σ) (i : ι) (w : World σ ι α) : World σ ι α where
  threads j := if j = i then ((w.threads i).turn server w.state).1 else w.threads j
  state := ((w.threads i).turn server w.state).2

/-- The threads take turns in the order of a schedule. -/
def after (server : Server σ) : List ι → World σ ι α → World σ ι α
  | [], w => w
  | i :: rest, w => after server rest (w.turn server i)

theorem turn_self (server : Server σ) (i : ι) (w : World σ ι α) :
    (w.turn server i).threads i = ((w.threads i).turn server w.state).1 := if_pos rfl

theorem turn_of_ne (server : Server σ) {i j : ι} (h : j ≠ i) (w : World σ ι α) :
    (w.turn server i).threads j = w.threads j := if_neg h

/-- What every turn keeps is kept by every schedule. -/
theorem after_preserves {server : Server σ} {inv : World σ ι α → Prop}
    (step : ∀ i w, inv w → inv (w.turn server i)) (schedule : List ι) {w : World σ ι α}
    (h : inv w) : inv (w.after server schedule) := by
  induction schedule generalizing w with
  | nil => exact h
  | cons i rest ih => exact ih (step i w h)

/-- A thread gets nearer to its end with each of its turns. -/
theorem within_after (server : Server σ) {i : ι} {n : Nat} (schedule : List ι) {w : World σ ι α}
    (h : (w.threads i).rest.Within n) :
    ((w.after server schedule).threads i).rest.Within (n - schedule.count i) := by
  induction schedule generalizing n w with
  | nil => exact h
  | cons j rest ih =>
      by_cases hj : j = i
      · subst hj
        have hturn := Thread.within_turn server h w.state
        rw [← turn_self server] at hturn
        have hrest := ih hturn
        rw [List.count_cons_self, Nat.add_comm, Nat.sub_add_eq]
        exact hrest
      · have hother : ((w.turn server j).threads i).rest.Within n := by
          rw [turn_of_ne server (Ne.symm hj)]
          exact h
        rw [List.count_cons_of_ne hj]
        exact ih hother

/-- A thread that has had its turns has ended. -/
theorem ended_of_turns (server : Server σ) {i : ι} {n : Nat} {schedule : List ι} {w : World σ ι α}
    (h : (w.threads i).rest.Within n) (hturns : n ≤ schedule.count i) :
    ((w.after server schedule).threads i).result?.isSome = true := by
  have hend := within_after server schedule h
  rw [Nat.sub_eq_zero_of_le hturns] at hend
  exact Thread.ended_of_within hend

/-- A thread that takes its turns one right after the other ends. -/
theorem exists_ended (server : Server σ) (i : ι) (w : World σ ι α) :
    ∃ n, ((w.after server (List.replicate n i)).threads i).result?.isSome = true := by
  rcases ht : w.threads i with ⟨p, c, sent⟩
  -- Induction on what is left of the procedure: each turn uses up one constructor of it.
  induction p generalizing w c sent with
  | done a => exact ⟨0, by simp [after, ht, Thread.result?]⟩
  | call q next ih =>
      have hself := turn_self server i w
      rcases hanswer : server.answer q w.state with ⟨answer, u⟩
      cases answer with
      | error f =>
          simp only [Thread.turn, ht, hanswer] at hself
          obtain ⟨n, hn⟩ := ih _ _ _ _ hself
          exact ⟨n + 1, hn⟩
      | ok a =>
          simp only [Thread.turn, ht, hanswer] at hself
          obtain ⟨n, hn⟩ := ih _ _ _ _ hself
          exact ⟨n + 1, hn⟩
  | record r next ih =>
      obtain ⟨n, hn⟩ := ih (w.turn server i) c sent (by simp [turn_self, Thread.turn, ht])
      exact ⟨n + 1, hn⟩
  | configure log next ih =>
      obtain ⟨n, hn⟩ := ih (w.turn server i) c sent (by simp [turn_self, Thread.turn, ht])
      exact ⟨n + 1, hn⟩
  | clock next ih =>
      obtain ⟨n, hn⟩ := ih (Clock.read c).1 (w.turn server i) (Clock.read c).2 sent
        (by simp [turn_self, Thread.turn, ht])
      exact ⟨n + 1, hn⟩

/-- Turns of a thread alone do not change what it comes to. -/
theorem prospect_alone (server : Server σ) (i : ι) (n : Nat) (w : World σ ι α) :
    let v := w.after server (List.replicate n i)
    (v.threads i).prospect server v.state = (w.threads i).prospect server w.state := by
  induction n generalizing w with
  | zero => rfl
  | succ n ih =>
      have hrest := ih (w.turn server i)
      rw [turn_self] at hrest
      exact hrest.trans (Thread.prospect_turn server (w.threads i) w.state)

/-- **Turns are the parts of a run.**  A thread that takes its turns one right
after the other ends with the result of its procedure, after the calls that its
procedure has accepted, in the state that its procedure leaves. -/
theorem exists_run_alone (server : Server σ) (i : ι) (w : World σ ι α) :
    ∃ n, let v := w.after server (List.replicate n i)
      let o := (w.threads i).rest.run server w.state (w.threads i).clock
      (v.threads i).result? = some o.result ∧
      (v.threads i).accepted = (w.threads i).accepted ++
        (w.threads i).rest.accepted server w.state (w.threads i).clock ∧
      v.state = o.state := by
  obtain ⟨n, hended⟩ := exists_ended server i w
  refine ⟨n, ?_⟩
  intro v o
  have hprospect : (v.threads i).prospect server v.state =
      (w.threads i).prospect server w.state := prospect_alone server i n w
  change (v.threads i).result?.isSome = true at hended
  rcases hv : v.threads i with ⟨rest, clock, accepted⟩
  rw [hv] at hended hprospect
  cases rest with
  | done a =>
      simp only [Thread.prospect, Procedure.run, Procedure.accepted, List.append_nil,
        Prod.mk.injEq] at hprospect
      obtain ⟨hresult, haccepted, hstate⟩ := hprospect
      exact ⟨congrArg some hresult, haccepted, hstate⟩
  | _ => cases hended

end World

end InitialLoad
