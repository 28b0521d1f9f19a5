import InitialLoad.Proofs.SeedCourse

/-!
# A seed fails fast

A seed has one plan of calls, fixed by the principal and the two lists.  Against
any server, whatever it answers or refuses at each call, a seed makes the calls
of the plan in their order and stops at the first one that fails or cannot be
formed.  Nothing is repeated and nothing is taken back, and the records written
say which parts of the plan were completed.
-/

namespace InitialLoad

/-- Attempts without records in between: the records after them are reached
once all of them have been made. -/
theorem Stage.recordsBefore_attempts {ι : Type} (request : ι → Except Failure Request)
    (report : ι → Failure → Failure) (xs : List ι) (rest : List Stage) (n : Nat) :
    recordsBefore n (xs.map (fun x => .attempt (request x) (report x)) ++ rest) =
      if xs.length ≤ n then recordsBefore (n - xs.length) rest else [] := by
  induction xs generalizing n with
  | nil => simp
  | cons x xs ih =>
      cases n with
      | zero => simp [recordsBefore]
      | succ n => simp [recordsBefore, ih]

theorem Stage.requests_attempts {ι : Type} (request : ι → Except Failure Request)
    (report : ι → Failure → Failure) (xs : List ι) :
    requests (xs.map fun x => .attempt (request x) (report x)) = xs.map request := by
  induction xs with
  | nil => rfl
  | cons x xs ih => simp [ih]

namespace Seeding

/-- The calls of a seed: the database user, the index on apps, the index on
users, every app in order, every user in order. -/
def plan (database : Text) (p : DatabaseUser) (apps users : List Value) :
    List (Except Failure Request) :=
  .ok (.createUser database (.text p.user) (.text p.pwd) p.grants) ::
  .ok (.createIndex (appsOf database) Layout.idKeys [("unique", .bool true)]) ::
  .ok (.createIndex (usersOf database) Layout.idKeys [("unique", .bool true)]) ::
    (apps.map (insertCall (appsOf database)) ++ users.map (insertCall (usersOf database)))

/-- The records of the parts of a seed that are complete when `n` calls have
been accepted: the user after the first call, the apps after the indexes and
all apps, the users after everything. -/
def milestones (database : Text) (p : DatabaseUser) (apps users : List Value) (n : Nat) :
    List LogRecord :=
  (if 1 ≤ n then [created p] else []) ++
  (if 3 + apps.length ≤ n then [inserted (appsOf database) apps.length] else []) ++
  (if 3 + apps.length + users.length ≤ n then [inserted (usersOf database) users.length] else [])

theorem requests_course (database : Text) (p : DatabaseUser) (apps users : List Value) :
    Stage.requests (course database Layout.declaredIndexes p apps users) =
      plan database p apps users := by
  have happs : Stage.requests (apps.map (insertion (appsOf database))) =
      apps.map (insertCall (appsOf database)) := Stage.requests_attempts _ _ apps
  have husers : Stage.requests (users.map (insertion (usersOf database))) =
      users.map (insertCall (usersOf database)) := Stage.requests_attempts _ _ users
  have hindexes : Stage.requests (indexings database Layout.declaredIndexes) =
      [.ok (.createIndex (appsOf database) Layout.idKeys [("unique", .bool true)]),
       .ok (.createIndex (usersOf database) Layout.idKeys [("unique", .bool true)])] := rfl
  simp [course, plan, creation, happs, husers, hindexes]

theorem recordsBefore_course (database : Text) (p : DatabaseUser) (apps users : List Value)
    (n : Nat) :
    Stage.recordsBefore n (course database Layout.declaredIndexes p apps users) =
      opening database :: milestones database p apps users n := by
  have happs : ∀ rest n, Stage.recordsBefore n (apps.map (insertion (appsOf database)) ++ rest) =
      if apps.length ≤ n then Stage.recordsBefore (n - apps.length) rest else [] :=
    Stage.recordsBefore_attempts _ _ apps
  have husers : ∀ rest n, Stage.recordsBefore n (users.map (insertion (usersOf database)) ++ rest) =
      if users.length ≤ n then Stage.recordsBefore (n - users.length) rest else [] :=
    Stage.recordsBefore_attempts _ _ users
  have hindexes : indexings database Layout.declaredIndexes =
      [indexing (appsOf database) Layout.uniqueId, indexing (usersOf database) Layout.uniqueId] :=
    rfl
  -- The first three calls are no elements of a list, so they are counted off one by one.
  match n with
  | 0 => simp [course, creation, milestones, Stage.recordsBefore]
  | 1 =>
      have hfew : ∀ m, ¬ 3 + m ≤ 1 := fun m => by omega
      simp [course, creation, milestones, Stage.recordsBefore, hindexes, indexing, Nat.add_assoc,
        hfew]
  | 2 =>
      have hfew : ∀ m, ¬ 3 + m ≤ 2 := fun m => by omega
      simp [course, creation, milestones, Stage.recordsBefore, hindexes, indexing, Nat.add_assoc,
        hfew]
  | n + 3 =>
      have hlists : ∀ m, (3 + m ≤ n + 3) = (m ≤ n) := fun m => by simp; omega
      simp only [course, creation, milestones, Stage.recordsBefore, hindexes, indexing,
        List.cons_append, List.nil_append, happs, husers, Nat.add_assoc, hlists]
      by_cases ha : apps.length ≤ n
      · by_cases hu : users.length ≤ n - apps.length
        · have hall : apps.length + users.length ≤ n := by omega
          simp [ha, hu, hall]
        · have hall : ¬ apps.length + users.length ≤ n := by omega
          simp [ha, hu, hall]
      · have hall : ¬ apps.length + users.length ≤ n := by omega
        simp [ha, hall]

/-- **A seed fails fast.**  Against every server the calls of a seed are the
first ones of its plan: those that were accepted, one after the other, and the
one that was refused, if one was.  The seed ends there, or where an element has
no document, and it gives its summary exactly when every call of the plan was
accepted.  After the opening record it has written the records of the parts that
were completed by then, and no others. -/
theorem seed_fails_fast {σ : Type} (server : Server σ) (database : Text) (p : DatabaseUser)
    (apps users : List Value) (s : σ) (clock : Clock) :
    let o := Job.outcome server
      (seed database Layout.declaredIndexes p.toValue apps users) s clock
    ∃ (accepted : List Request) (rest : List (Except Failure Request)) (t : σ),
      plan database p apps users = accepted.map .ok ++ rest ∧
      Accepts server s accepted t ∧
      Event.records o.events =
        opening database :: milestones database p apps users accepted.length ∧
      (rest = [] ∧ o.result = .ok (summary database p apps users clock) ∧
          Event.calls o.events = accepted ∧ o.state = t ∨
        (∃ f later, rest = .error f :: later ∧ o.result = .error f ∧
          Event.calls o.events = accepted ∧ o.state = t) ∨
        ∃ q f u later, rest = .ok q :: later ∧ server.answer q t = (.error f, u) ∧
          (∃ g, o.result = .error g) ∧
          Event.calls o.events = accepted ++ [q] ∧ o.state = u) := by
  intro o
  obtain ⟨hresult, hevents, hstate⟩ :=
    seed_outcome server database Layout.declaredIndexes p apps users s clock
  obtain ⟨accepted, rest, t, hplan, haccepts, hrecords, hend⟩ :=
    perform_cases server (course database Layout.declaredIndexes p apps users) s
  rw [requests_course] at hplan
  rw [recordsBefore_course] at hrecords
  refine ⟨accepted, rest, t, hplan, haccepts, ?_, ?_⟩
  · rw [← hrecords]
    exact congrArg Event.records hevents
  · have hcalls := congrArg Event.calls hevents
    rcases hend with ⟨hrest, hf, hc, ht⟩ | ⟨f, later, hrest, hf, hc, ht⟩ |
      ⟨q, f, u, later, hrest, hq, ⟨g, hf⟩, hc, ht⟩
    · simp only [hf] at hresult
      exact Or.inl ⟨hrest, hresult, hcalls.trans hc, hstate.trans ht⟩
    · simp only [hf] at hresult
      exact Or.inr (Or.inl ⟨f, later, hrest, hresult, hcalls.trans hc, hstate.trans ht⟩)
    · simp only [hf] at hresult
      exact Or.inr (Or.inr ⟨q, f, u, later, hrest, hq, ⟨g, hresult⟩, hcalls.trans hc,
        hstate.trans ht⟩)

end Seeding

end InitialLoad
