import InitialLoad.Proofs.Histories
import InitialLoad.Seeding.InitialData

/-!
# The principal locks the seed

The first call of a seed creates its database user, and nothing that can be done
removes one.  So once a database user of some name has been created on a
database, by a seed or otherwise, every later seed for that name ends at its
first call.  A seed that failed half-way stays half-done: doing it again for the
same name adds nothing.

What is relied on of the server is `KeepsUsers`; `Store.keepsUsers` shows that
the store is such a server.  A principal that cannot be written is refused before
the server can say that it exists, so there the report is another one.
-/

namespace InitialLoad

variable {σ : Type}

/-- What is relied on of a server: `known` says which names exist on which
database.  A name exists once its creation was accepted, no call removes it, and
creating it again is refused and changes nothing; a creation that `reaches` the
server is refused with the code for this. -/
structure KeepsUsers (server : Server σ) (known : Text → Text → σ → Prop)
    (reaches : Request → Prop) : Prop where
  refused : ∀ {database name : Text} (pwd : Value) (roles : List Value) {s : σ},
    known database name s → ∃ f : Failure,
      server.answer (.createUser database (.text name) pwd roles) s = (.error f, s) ∧
      (reaches (.createUser database (.text name) pwd roles) →
        f.problem.isRefusalWith Store.userExistsCode = true)
  recorded : ∀ {database name : Text} {pwd : Value} {roles : List Value} {s t : σ},
    server.answer (.createUser database (.text name) pwd roles) s = (.ok (), t) →
      known database name t
  kept : ∀ {database name : Text} (q : Request) (s : σ),
    known database name s → known database name (server.answer q s).2

namespace Store

/-- A change of a collection, made or refused, leaves the database users. -/
theorem settle_updateCollection_accounts (place : Place)
    (change : Collection → Except Failure Collection) (s : Store) :
    (s.settle (s.updateCollection place change)).2.accounts = s.accounts := by
  unfold updateCollection
  cases change (s.collection place) with
  | error f => rfl
  | ok c => rfl

theorem hasUser_append (database : Text) (user : Value) (account : Account) (s : Store)
    (h : s.hasUser database user = true) :
    hasUser database user { s with accounts := s.accounts ++ [account] } = true := by
  unfold hasUser at *
  rw [List.any_append, h, Bool.true_or]

theorem hasUser_carryOut {database : Text} {user : Value} (q : Request) (s : Store)
    (h : s.hasUser database user = true) : (carryOut q s).2.hasUser database user = true := by
  cases q with
  | createUser other name pwd roles =>
      simp only [carryOut, createUser]
      split
      · exact h
      · exact hasUser_append _ _ _ s h
  | createIndex place keys options =>
      unfold hasUser at *
      rw [carryOut, settle_updateCollection_accounts]
      exact h
  | insertOne place doc =>
      unfold hasUser at *
      rw [carryOut, settle_updateCollection_accounts]
      exact h
  | connect uri => exact h
  | close => exact h
  | ping => exact h
  | findOne place id => exact h
  | findIds place => exact h

/-- No request removes a database user. -/
theorem hasUser_answer {database : Text} {user : Value} (q : Request) (s : Store)
    (h : s.hasUser database user = true) : (answer q s).2.hasUser database user = true := by
  rcases answer_cases q s with ⟨-, hanswer⟩ | ⟨problem, -, hanswer⟩
  · rw [hanswer]
    exact hasUser_carryOut q s h
  · rw [hanswer]
    exact h

/-- The store keeps database users, and what can be written reaches it. -/
theorem keepsUsers :
    KeepsUsers server (fun database name s => s.hasUser database (.text name) = true)
      fun q => q.obstacle? = none where
  refused := by
    intro database name pwd roles s h
    rcases answer_cases (.createUser database (.text name) pwd roles) s with
      ⟨-, hanswer⟩ | ⟨problem, hobstacle, hanswer⟩
    · refine ⟨userExists database (.text name), ?_, fun _ => rfl⟩
      refine hanswer.trans ?_
      simp [carryOut, createUser, h, settle]
    · refine ⟨Failure.of problem, hanswer, ?_⟩
      intro hwritten
      cases hobstacle.symm.trans hwritten
  recorded := by
    intro database name pwd roles s t h
    have hcarried := (carriedOut_of_accepted h).2
    simp only [carryOut, createUser] at hcarried
    split at hcarried
    · simp [settle] at hcarried
    · simp only [settle, Prod.mk.injEq, true_and] at hcarried
      subst hcarried
      simp [hasUser, Value.same]
  kept := by
    intro database name q s h
    exact hasUser_answer q s h

end Store

namespace KeepsUsers

variable {server : Server σ} {known : Text → Text → σ → Prop} {reaches : Request → Prop}
  {database name : Text}

/-- A name that exists still exists after a procedure has run. -/
theorem known_run {α : Type} (keeps : KeepsUsers server known reaches) (p : Procedure α)
    (c : Clock) {s : σ} (h : known database name s) :
    known database name (p.run server s c).state :=
  (Procedure.sends_any p).preserves (fun q s _ => keeps.kept q s) h c

/-- A procedure that had a creation accepted leaves the name in existence. -/
theorem known_of_accepted {α : Type} (keeps : KeepsUsers server known reaches)
    {p : Procedure α} {s : σ} {c : Clock} {pwd : Value} {roles : List Value}
    (h : .createUser database (.text name) pwd roles ∈ p.accepted server s c) :
    known database name (p.run server s c).state := by
  induction p generalizing s c with
  | done a => cases h
  | call q next ih =>
      simp only [Procedure.accepted] at h
      rcases hanswer : server.answer q s with ⟨answer, t⟩
      rw [hanswer] at h
      show known database name (Procedure.run server (next (server.answer q s).1)
        (server.answer q s).2 c).state
      rw [hanswer]
      cases answer with
      | error f => exact ih _ h
      | ok a =>
          rcases List.mem_cons.mp h with rfl | hlater
          · exact keeps.known_run _ c (keeps.recorded hanswer)
          · exact ih _ hlater
  | record r next ih => exact ih h
  | configure log next ih => exact ih h
  | clock next ih => exact ih _ h

end KeepsUsers

namespace Seeding

namespace Step

/-- The step is a seed of the database for a database user of this name. -/
def Seeds (database name : Text) (step : Step) : Prop :=
  step.database = database ∧ ∃ table principal apps users,
    step.operation = .seed table principal apps users ∧
      principal.member "user" = .ok (.text name)

/-- The step inserts a document when it is done in this state. -/
def Inserts (server : Server σ) (step : Step) (s : σ) : Prop :=
  ∃ place doc, .insertOne place doc ∈ step.accepted server s

end Step

namespace Step.Seeds

variable {server : Server σ} {known : Text → Text → σ → Prop} {reaches : Request → Prop}
  {database name : Text}
  {step : Step} {s : σ}

/-- A seed makes no call without a command for its principal.  Otherwise its
first call creates the database user, and a refusal of that call ends it. -/
theorem first_call (hstep : step.Seeds database name) :
    (∃ f, (step.operation.job step.database).run =
      .clock fun _ => .record (opening database) (.done (.error f))) ∨
    ∃ pwd roles, ∃ next : Int → Except Failure Unit → Procedure (Except Failure Unit),
      (step.operation.job step.database).run =
        .clock (fun t => .record (opening database)
          (.call (.createUser database (.text name) pwd roles) (next t))) ∧
      ∀ t f, next t (.error f) = .done (.error (whenUserRefused (.text name) f)) := by
  obtain ⟨rfl, table, principal, apps, users, hoperation, hname⟩ := hstep
  rw [hoperation]
  cases hcommand : principal.toCommand with
  | error f =>
      refine Or.inl ⟨f, ?_⟩
      simp only [Operation.job, seed, createAppUser, hname, hcommand]
      rfl
  | ok command =>
      refine Or.inr ⟨command.pwd, command.roles, ?_⟩
      simp only [Operation.job, seed, createAppUser, hname, hcommand]
      exact ⟨_, rfl, fun _ _ => rfl⟩

/-- A seed for a name that exists has nothing accepted and changes nothing. -/
theorem blocked (hstep : step.Seeds database name) (keeps : KeepsUsers server known reaches)
    (hknown : known database name s) :
    step.accepted server s = [] ∧ (step.outcome server s).state = s := by
  unfold Step.accepted Step.outcome Job.outcome
  rcases hstep.first_call with ⟨f, hrun⟩ | ⟨pwd, roles, next, hrun, hrefused⟩
  · rw [hrun]
    exact ⟨rfl, rfl⟩
  · obtain ⟨f, hanswer, -⟩ := keeps.refused pwd roles hknown
    rw [hrun]
    simp only [Procedure.accepted, Procedure.run, hanswer, hrefused]
    exact ⟨trivial, rfl⟩

/-- A seed that had anything accepted created its database user. -/
theorem creates (hstep : step.Seeds database name) {q : Request}
    (hq : q ∈ step.accepted server s) :
    ∃ pwd roles, .createUser database (.text name) pwd roles ∈ step.accepted server s := by
  unfold Step.accepted at *
  rcases hstep.first_call with ⟨f, hrun⟩ | ⟨pwd, roles, next, hrun, hrefused⟩
  · rw [hrun] at hq
    cases hq
  · refine ⟨pwd, roles, ?_⟩
    rw [hrun] at hq ⊢
    simp only [Procedure.accepted] at hq ⊢
    cases hanswer : (server.answer (.createUser database (.text name) pwd roles) s).1 with
    | error f =>
        rw [hanswer] at hq
        simp only [hrefused] at hq
        cases hq
    | ok a => exact List.mem_cons_self

end Step.Seeds

/-! ## The lock -/

section

variable {server : Server σ} {known : Text → Text → σ → Prop} {reaches : Request → Prop}
  {database name : Text}

/-- A name that a step of a history created exists at the end of the history. -/
theorem known_after (keeps : KeepsUsers server known reaches) {before between : List Step}
    {first : Step} {s : σ} {pwd : Value} {roles : List Value}
    (h : .createUser database (.text name) pwd roles ∈
      first.accepted server (after server before s)) :
    known database name (after server (before ++ first :: between) s) := by
  rw [after_append, after]
  have hcreated : known database name (first.outcome server (after server before s)).state :=
    keeps.known_of_accepted h
  exact after_preserves _ (fun q s _ => keeps.kept q s) (fun step _ => Procedure.sends_any _)
    hcreated

/-- A seed for a database user that exists reports it after its only call. -/
theorem seed_locked (keeps : KeepsUsers server known reaches) (p : DatabaseUser)
    (table : IndexTable) (apps users : List Value) (clock : Clock) {s : σ}
    (hknown : known database p.user s) :
    let call : Request := .createUser database (.text p.user) (.text p.pwd) p.grants
    let o := Job.outcome server (seed database table p.toValue apps users) s clock
    (reaches call → ∃ f : Failure, f.problem.isRefusalWith Store.userExistsCode = true ∧
      o.result = .error (Failure.because (.duplicateEntity (.text "user") (.text p.user)) f)) ∧
    (∃ f, o.result = .error f) ∧ Event.calls o.events = [call] ∧ o.state = s := by
  intro call o
  obtain ⟨f, hanswer, hcode⟩ := keeps.refused (.text p.pwd) p.grants hknown
  obtain ⟨hresult, hevents, hstate⟩ := seed_outcome server database table p apps users s clock
  have hprogress : perform server (course database table p apps users) s =
      ⟨some (whenUserRefused (.text p.user) f), [.record (opening database), .call call], s⟩ := by
    simp [course, creation, perform, hanswer, Progress.afterAll, call]
  rw [hprogress] at hresult hevents hstate
  refine ⟨?_, ⟨_, hresult⟩, congrArg Event.calls hevents, hstate⟩
  intro hreaches
  refine ⟨f, hcode hreaches, ?_⟩
  rw [whenUserRefused, if_pos (hcode hreaches)] at hresult
  exact hresult

/-- Of two seeds of one database for one name only the first can insert anything. -/
theorem not_inserts_after (keeps : KeepsUsers server known reaches) {steps : List Step} {i j : Nat}
    {first second : Step} {s : σ} (hij : i < j) (hi : steps[i]? = some first)
    (hfirst : first.Seeds database name) (hsecond : second.Seeds database name)
    (hinserts : first.Inserts server (after server (steps.take i) s)) :
    ¬ second.Inserts server (after server (steps.take j) s) := by
  obtain ⟨place, doc, hinsert⟩ := hinserts
  obtain ⟨pwd, roles, hcreated⟩ := hfirst.creates hinsert
  have hsplit : steps.take j = steps.take i ++ first :: (steps.take j).drop (i + 1) := by
    have hget : (steps.take j)[i]? = some first := by rw [List.getElem?_take_of_lt hij, hi]
    obtain ⟨hlength, hget⟩ := List.getElem?_eq_some_iff.mp hget
    have hparts := List.take_append_drop i (steps.take j)
    rw [List.take_take, Nat.min_eq_left (Nat.le_of_lt hij), List.drop_eq_getElem_cons hlength,
      hget] at hparts
    exact hparts.symm
  rw [hsplit]
  rintro ⟨place', doc', hlater⟩
  rw [(hsecond.blocked keeps (known_after keeps hcreated)).1] at hlater
  cases hlater

/-- **The principal locks the seed.**  Take any history on a server that keeps
database users.  Once a step has had the creation of a name on a database
accepted, every later seed of that database for that name fails after that one
call, and leaves everything as it was; this holds of any principal of that name,
and whether or not the step was completed.  It reports that the database user
exists, when the creation reaches the server.  So of the seeds of one database
for one name at most one inserts documents. -/
theorem principal_locks_seed (keeps : KeepsUsers server known reaches) (database name : Text)
    (s : σ) :
    (∀ (before : List Step) (first : Step) (between : List Step) (pwd : Value)
        (roles : List Value),
      .createUser database (.text name) pwd roles ∈
        first.accepted server (after server before s) →
      let t := after server (before ++ first :: between) s
      (∀ (p : DatabaseUser) (table : IndexTable) (apps users : List Value) (clock : Clock),
        p.user = name →
        let call : Request := .createUser database (.text name) (.text p.pwd) p.grants
        let o := Job.outcome server (seed database table p.toValue apps users) t clock
        (reaches call → ∃ f : Failure,
          f.problem.isRefusalWith Store.userExistsCode = true ∧
          o.result = .error (Failure.because (.duplicateEntity (.text "user") (.text name)) f)) ∧
        (∃ f, o.result = .error f) ∧ Event.calls o.events = [call] ∧ o.state = t) ∧
      ∀ later : Step, later.Seeds database name →
        later.accepted server t = [] ∧ (later.outcome server t).state = t) ∧
    ∀ (steps : List Step) (i j : Nat) (first second : Step),
      steps[i]? = some first → steps[j]? = some second →
      first.Seeds database name → second.Seeds database name →
      first.Inserts server (after server (steps.take i) s) →
      second.Inserts server (after server (steps.take j) s) → i = j := by
  refine ⟨?_, ?_⟩
  · intro before first between pwd roles hcreated t
    have hknown : known database name t := known_after keeps hcreated
    refine ⟨?_, fun later hlater => hlater.blocked keeps hknown⟩
    rintro p table apps users clock rfl
    exact seed_locked keeps p table apps users clock hknown
  · intro steps i j first second hi hj hfirst hsecond hinsertsFirst hinsertsSecond
    rcases Nat.lt_trichotomy i j with hij | hij | hij
    · exact absurd hinsertsSecond (not_inserts_after keeps hij hi hfirst hsecond hinsertsFirst)
    · exact hij
    · exact absurd hinsertsFirst (not_inserts_after keeps hij hj hsecond hfirst hinsertsSecond)

end

/-- In the store a seed of the apps 1 and 1 inserts the first and fails.  Done
again with the initial apps, for the same principal, it inserts nothing. -/
theorem halfDone_stays_halfDone :
    let p : DatabaseUser := ⟨"loader", "secret", [⟨"readWrite", "appstore"⟩]⟩
    let app : App := ⟨1, "First App", 1, []⟩
    let halfDone : Step := ⟨"appstore", .seed Layout.declaredIndexes p.toValue
      [app.toValue, app.toValue] [], [0]⟩
    let t := after Store.server [halfDone] Store.empty
    let o := Job.outcome Store.server (seed "appstore" Layout.declaredIndexes p.toValue
      (initialApps.map App.toValue) (initialUsers.map User.toValue)) t [0]
    (∃ f : Failure, f.problem.isRefusalWith Store.userExistsCode = true ∧
      o.result = .error (Failure.because (.duplicateEntity (.text "user") (.text "loader")) f)) ∧
    Event.calls o.events =
      [.createUser "appstore" (.text "loader") (.text "secret") p.grants] ∧
    o.state = t := by
  intro p app halfDone t o
  have hcreated : .createUser "appstore" (.text "loader") (.text "secret") p.grants ∈
      halfDone.accepted Store.server (after Store.server [] Store.empty) := List.mem_cons_self
  have hlocked := (principal_locks_seed Store.keepsUsers "appstore" "loader" Store.empty).1
    [] halfDone [] _ _ hcreated
  obtain ⟨hreport, -, hcalls, hstate⟩ := hlocked.1 p Layout.declaredIndexes _ _ [0] rfl
  exact ⟨hreport rfl, hcalls, hstate⟩

end Seeding

end InitialLoad
