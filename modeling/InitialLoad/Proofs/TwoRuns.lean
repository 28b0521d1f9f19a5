import InitialLoad.Proofs.Actions
import InitialLoad.Server.Disturbance
import InitialLoad.Server.Store
import Mathlib.Data.List.Forall2

/-!
# Two runs that differ in a password

A password reaches a server in one call, the one that creates its database user.
`Procedure.Alike` says that two procedures differ in nothing but the passwords
that they send for one `Login`, and `Server.Blind` that a server answers as if it
did not see which of them it is.  Runs of the one against the other then end alike: with the same
events, the passwords apart, and with the same result.

Jobs and actions are alike when their parts are; the rules have the names of those
parts.
-/

namespace InitialLoad

variable {σ α β γ δ : Type}

/-- The database user whose password is not the same in both runs, with the password
that it has in the one and in the other. -/
structure Login where
  database : Text
  user : Value
  first : Value
  second : Value

/-- The calls are equal, except for the password of the database user. -/
inductive Request.Alike (k : Login) : Request → Request → Prop
  | same (q : Request) : Alike k q q
  | createUser (roles : List Value) :
      Alike k (.createUser k.database k.user k.first roles)
        (.createUser k.database k.user k.second roles)

/-- The events are equal, except for the password of the database user. -/
inductive Event.Alike (k : Login) : Event → Event → Prop
  | same (e : Event) : Alike k e e
  | call {q q' : Request} (h : q.Alike k q') : Alike k (.call q) (.call q')

/-- The server answers as if it did not see which of its two passwords the database user
has.  `alike` says of two of its states that they differ only in that password. -/
structure Server.Blind (server : Server σ) (k : Login) (alike : σ → σ → Prop) : Prop where
  refl : ∀ s, alike s s
  answers : ∀ q s t, alike s t → (server.answer q s).1 = (server.answer q t).1 ∧
    alike (server.answer q s).2 (server.answer q t).2
  creates : ∀ roles s t, alike s t →
    (server.answer (.createUser k.database k.user k.first roles) s).1 =
        (server.answer (.createUser k.database k.user k.second roles) t).1 ∧
      alike (server.answer (.createUser k.database k.user k.first roles) s).2
        (server.answer (.createUser k.database k.user k.second roles) t).2

/-- Both succeed, with related results, or both fail with the same failure. -/
inductive Matching (related : α → β → Prop) : Except Failure α → Except Failure β → Prop
  | ok {a : α} {b : β} (h : related a b) : Matching related (.ok a) (.ok b)
  | error (f : Failure) : Matching related (.error f) (.error f)

theorem Matching.refl {related : α → α → Prop} (h : ∀ a, related a a) (e : Except Failure α) :
    Matching related e e := by
  cases e with
  | ok a => exact .ok (h a)
  | error f => exact .error f

theorem Matching.eq {e e' : Except Failure α} (h : Matching Eq e e') : e = e' := by
  cases h with
  | ok h => rw [h]
  | error f => rfl

/-! ## Outcomes -/

/-- Two runs end alike. -/
structure Outcome.Alike (k : Login) (alike : σ → σ → Prop) (related : α → β → Prop)
    (o : Outcome σ α) (o' : Outcome σ β) : Prop where
  result : related o.result o'.result
  events : List.Forall₂ (Event.Alike k) o.events o'.events
  state : alike o.state o'.state
  clock : o.clock = o'.clock

namespace Event

variable {k : Login} {xs ys : List Event}

/-- Nothing of the password is in the log. -/
theorem records_of_alike (h : List.Forall₂ (Alike k) xs ys) : records xs = records ys := by
  induction h with
  | nil => rfl
  | @cons e e' _ _ head rest ih =>
      cases head with
      | call hq => exact ih
      | same =>
          cases e with
          | call q => exact ih
          | record r => exact congrArg (r :: ·) ih
          | configured log => exact ih

theorem calls_of_alike (h : List.Forall₂ (Alike k) xs ys) :
    List.Forall₂ (Request.Alike k) (calls xs) (calls ys) := by
  induction h with
  | nil => exact .nil
  | @cons e e' _ _ head rest ih =>
      cases head with
      | call hq => exact .cons hq ih
      | same =>
          cases e with
          | call q => exact .cons (.same q) ih
          | record r => exact ih
          | configured log => exact ih

end Event

/-! ## Procedures -/

namespace Procedure

/-- The procedures differ only in the passwords that they send for the database
user, and in their results as far as these are related. -/
inductive Alike (k : Login) (related : α → β → Prop) : Procedure α → Procedure β → Prop
  | done {a : α} {b : β} (h : related a b) : Alike k related (.done a) (.done b)
  | call {q : Request} {next : Except Failure q.Answer → Procedure α}
      {next' : Except Failure q.Answer → Procedure β}
      (h : ∀ answer, Alike k related (next answer) (next' answer)) :
      Alike k related (.call q next) (.call q next')
  | createUser {roles : List Value} {next : Except Failure Unit → Procedure α}
      {next' : Except Failure Unit → Procedure β}
      (h : ∀ answer, Alike k related (next answer) (next' answer)) :
      Alike k related (.call (.createUser k.database k.user k.first roles) next)
        (.call (.createUser k.database k.user k.second roles) next')
  | record {r : LogRecord} {next : Procedure α} {next' : Procedure β}
      (h : Alike k related next next') : Alike k related (.record r next) (.record r next')
  | configure {log : Logging} {next : Procedure α} {next' : Procedure β}
      (h : Alike k related next next') :
      Alike k related (.configure log next) (.configure log next')
  | clock {next : Int → Procedure α} {next' : Int → Procedure β}
      (h : ∀ t, Alike k related (next t) (next' t)) : Alike k related (.clock next) (.clock next')

namespace Alike

variable {k : Login}

theorem refl {related : α → α → Prop} (h : ∀ a, related a a) (p : Procedure α) :
    Alike k related p p := by
  induction p with
  | done a => exact .done (h a)
  | call q next ih => exact .call ih
  | record r next ih => exact .record ih
  | configure log next ih => exact .configure ih
  | clock next ih => exact .clock ih

theorem bind {related : α → β → Prop} {related' : γ → δ → Prop} {p : Procedure α}
    {p' : Procedure β} {f : α → Procedure γ} {f' : β → Procedure δ} (h : Alike k related p p')
    (hf : ∀ a b, related a b → Alike k related' (f a) (f' b)) :
    Alike k related' (p.bind f) (p'.bind f') := by
  induction h with
  | done hab => exact hf _ _ hab
  | call _ ih => exact .call ih
  | createUser _ ih => exact .createUser ih
  | record _ ih => exact .record ih
  | configure _ ih => exact .configure ih
  | clock _ ih => exact .clock ih

theorem writing {related : α → β → Prop} {p : Procedure α} {p' : Procedure β}
    (records : List LogRecord) (h : Alike k related p p') :
    Alike k related (Procedure.writing records p) (Procedure.writing records p') := by
  induction records with
  | nil => exact h
  | cons r rest ih => exact .record ih

/-- **Runs of procedures that are alike** end alike against a server that does not see
the password. -/
theorem run {server : Server σ} {alike : σ → σ → Prop} (hblind : server.Blind k alike)
    {related : α → β → Prop} {p : Procedure α} {p' : Procedure β} (h : Alike k related p p')
    {s t : σ} (hst : alike s t) (c : Clock) :
    Outcome.Alike k alike related (p.run server s c) (p'.run server t c) := by
  induction h generalizing s t c with
  | done hab => exact ⟨hab, .nil, hst, rfl⟩
  | @call q next next' _ ih =>
      obtain ⟨hanswer, hafter⟩ := hblind.answers q s t hst
      have hrest := ih (server.answer q t).1 hafter c
      simp only [Procedure.run, Outcome.after, hanswer]
      exact ⟨hrest.result, .cons (.same _) hrest.events, hrest.state, hrest.clock⟩
  | @createUser roles next next' _ ih =>
      obtain ⟨hanswer, hafter⟩ := hblind.creates roles s t hst
      have hrest := ih (server.answer (.createUser k.database k.user k.second roles) t).1 hafter c
      simp only [Procedure.run, Outcome.after, hanswer]
      exact ⟨hrest.result, .cons (.call (.createUser roles)) hrest.events, hrest.state,
        hrest.clock⟩
  | record _ ih =>
      have hrest := ih hst c
      exact ⟨hrest.result, .cons (.same _) hrest.events, hrest.state, hrest.clock⟩
  | configure _ ih =>
      have hrest := ih hst c
      exact ⟨hrest.result, .cons (.same _) hrest.events, hrest.state, hrest.clock⟩
  | clock _ ih => exact ih _ hst _

end Alike

end Procedure

/-! ## Jobs -/

namespace Job

/-- The jobs differ only in the passwords that they send for the database user. -/
def Alike (k : Login) (related : α → β → Prop) (job : Job α) (job' : Job β) : Prop :=
  Procedure.Alike k (Matching related) job.run job'.run

namespace Alike

variable {k : Login}

theorem refl (job : Job α) : Alike k Eq job job :=
  Procedure.Alike.refl (Matching.refl fun _ => rfl) job.run

theorem ofExcept {related : α → β → Prop} {e : Except Failure α} {e' : Except Failure β}
    (h : Matching related e e') : Alike k related (Job.ofExcept e) (Job.ofExcept e') :=
  .done h

theorem bind {related : α → β → Prop} {related' : γ → δ → Prop} {job : Job α} {job' : Job β}
    {f : α → Job γ} {f' : β → Job δ} (h : Alike k related job job')
    (hf : ∀ a b, related a b → Alike k related' (f a) (f' b)) :
    Alike k related' (job >>= f) (job' >>= f') := by
  refine Procedure.Alike.bind h ?_
  intro r r' hr
  cases hr with
  | ok hab => exact hf _ _ hab
  | error e => exact .done (.error e)

/-- The same job before jobs that are alike. -/
theorem after {related : β → γ → Prop} (job : Job α) {f : α → Job β} {f' : α → Job γ}
    (hf : ∀ a, Alike k related (f a) (f' a)) : Alike k related (job >>= f) (job >>= f') := by
  refine (refl job).bind ?_
  rintro a _ rfl
  exact hf a

end Alike

end Job

/-! ## Actions -/

namespace Action

/-- The actions differ only in the passwords that they send for the database user.
`kept` says how the two seeders differ, before and after. -/
def Alike (k : Login) (kept : Seeder → Seeder → Prop) (related : α → β → Prop) (action : Action α)
    (action' : Action β) : Prop :=
  ∀ x y, kept x y → Procedure.Alike k (fun r r' => Matching related r.1 r'.1 ∧ kept r.2 r'.2)
    (action.run x) (action'.run y)

namespace Alike

variable {k : Login} {kept : Seeder → Seeder → Prop}

theorem pure {related : α → β → Prop} {a : α} {b : β} (h : related a b) :
    Alike k kept related (Pure.pure a) (Pure.pure b) :=
  fun _ _ hxy => .done ⟨.ok h, hxy⟩

theorem fail {related : α → β → Prop} (f : Failure) :
    Alike k kept related (Action.fail f) (Action.fail f) :=
  fun _ _ hxy => .done ⟨.error f, hxy⟩

theorem bind {related : α → β → Prop} {related' : γ → δ → Prop} {action : Action α}
    {action' : Action β} {f : α → Action γ} {f' : β → Action δ}
    (h : Alike k kept related action action')
    (hf : ∀ a b, related a b → Alike k kept related' (f a) (f' b)) :
    Alike k kept related' (action >>= f) (action' >>= f') := by
  intro x y hxy
  rw [run_bind, run_bind]
  refine (h x y hxy).bind ?_
  rintro ⟨r, x'⟩ ⟨r', y'⟩ ⟨hr, hkept⟩
  cases hr with
  | ok hab => exact hf _ _ hab x' y' hkept
  | error e => exact .done ⟨.error e, hkept⟩

theorem ofJob {related : α → β → Prop} {job : Job α} {job' : Job β}
    (h : Job.Alike k related job job') :
    Alike k kept related (Action.ofJob job) (Action.ofJob job') := by
  intro x y hxy
  refine Procedure.Alike.bind h ?_
  exact fun r r' hr => .done ⟨hr, hxy⟩

theorem writeAll (records : List LogRecord) :
    Alike k kept Eq (Action.writeAll records) (Action.writeAll records) := by
  intro x y hxy
  rw [run_writeAll, run_writeAll]
  exact .writing records (.done ⟨.ok rfl, hxy⟩)

theorem state : Alike k kept kept Action.state Action.state :=
  fun _ _ hxy => .done ⟨.ok hxy, hxy⟩

theorem update {change change' : Seeder → Seeder}
    (h : ∀ x y, kept x y → kept (change x) (change' y)) :
    Alike k kept Eq (Action.update change) (Action.update change') :=
  fun x y hxy => .done ⟨.ok rfl, h x y hxy⟩

theorem attempt {related : α → β → Prop} {action : Action α} {action' : Action β}
    (h : Alike k kept related action action') :
    Alike k kept (Matching related) (Action.attempt action) (Action.attempt action') := by
  intro x y hxy
  refine Procedure.Alike.bind (h x y hxy) ?_
  exact fun r r' hr => .done ⟨.ok hr.1, hr.2⟩

end Alike

end Action

/-! ## Servers that do not see the password -/

/-- The accounts are equal, except for the password of the database user. -/
structure Account.Alike (k : Login) (a b : Account) : Prop where
  database : a.database = b.database
  user : a.user = b.user
  roles : a.roles = b.roles
  pwd : a.pwd = b.pwd ∨ a.database = k.database ∧ a.user = k.user

theorem Account.Alike.refl (k : Login) (a : Account) : Account.Alike k a a :=
  ⟨rfl, rfl, rfl, Or.inl rfl⟩

namespace Store

/-- The stores are equal, except for the stored password of the database user. -/
structure Alike (k : Login) (s t : Store) : Prop where
  collection : s.collection = t.collection
  accounts : List.Forall₂ (Account.Alike k) s.accounts t.accounts

variable {k : Login} {s t : Store}

theorem hasUser_of_alike (h : Alike k s t) (database : Text) (user : Value) :
    s.hasUser database user = t.hasUser database user := by
  obtain ⟨-, haccounts⟩ := h
  unfold hasUser
  generalize s.accounts = xs at haccounts ⊢
  generalize t.accounts = ys at haccounts ⊢
  induction haccounts with
  | nil => rfl
  | cons head rest ih => simp only [List.any_cons, head.database, head.user, ih]

theorem createUser_alike (h : Alike k s t) {a b : Account} (hab : Account.Alike k a b) :
    (s.settle (s.createUser a)).1 = (t.settle (t.createUser b)).1 ∧
      Alike k (s.settle (s.createUser a)).2 (t.settle (t.createUser b)).2 := by
  simp only [createUser, hasUser_of_alike h, hab.database, hab.user]
  split
  · exact ⟨rfl, h⟩
  · exact ⟨rfl, h.collection, List.rel_append h.accounts (.cons hab .nil)⟩

theorem updateCollection_alike (h : Alike k s t) (place : Place)
    (change : Collection → Except Failure Collection) :
    (s.settle (s.updateCollection place change)).1 =
        (t.settle (t.updateCollection place change)).1 ∧
      Alike k (s.settle (s.updateCollection place change)).2
        (t.settle (t.updateCollection place change)).2 := by
  simp only [updateCollection, h.collection]
  cases change (t.collection place) with
  | error f => exact ⟨rfl, h⟩
  | ok c =>
      refine ⟨rfl, ?_, h.accounts⟩
      simp only [Except.map, settle, setCollection, h.collection]

theorem carryOut_alike (h : Alike k s t) (q : Request) :
    (carryOut q s).1 = (carryOut q t).1 ∧ Alike k (carryOut q s).2 (carryOut q t).2 := by
  cases q with
  | createUser database user pwd roles => exact createUser_alike h (.refl k _)
  | createIndex place keys options => exact updateCollection_alike h place _
  | insertOne place doc => exact updateCollection_alike h place _
  | findOne place id => exact ⟨by simp only [carryOut, h.collection], h⟩
  | findIds place => exact ⟨by simp only [carryOut, h.collection], h⟩
  | _ => exact ⟨rfl, h⟩

/-- A store does not tell a password that can be written. -/
theorem blind {k : Login} (hfirst : k.first.obstacle? = none)
    (hsecond : k.second.obstacle? = none) : server.Blind k (Alike k) where
  refl := fun s => ⟨rfl, List.forall₂_same.mpr fun a _ => .refl k a⟩
  answers := by
    intro q s t h
    cases hobstacle : q.obstacle? with
    | none =>
        rw [answer_of_written hobstacle, answer_of_written hobstacle]
        exact carryOut_alike h q
    | some problem =>
        rw [answer_of_obstacle hobstacle, answer_of_obstacle hobstacle]
        exact ⟨rfl, h⟩
  creates := by
    intro roles s t h
    have hsame : (Request.createUser k.database k.user k.first roles).obstacle? =
        (Request.createUser k.database k.user k.second roles).obstacle? := by
      simp only [Request.obstacle?, Value.obstacleInItems?, hfirst, hsecond]
    cases hobstacle : (Request.createUser k.database k.user k.second roles).obstacle? with
    | none =>
        rw [answer_of_written (hsame.trans hobstacle), answer_of_written hobstacle]
        exact createUser_alike h ⟨rfl, rfl, rfl, Or.inr ⟨rfl, rfl⟩⟩
    | some problem =>
        rw [answer_of_obstacle (hsame.trans hobstacle), answer_of_obstacle hobstacle]
        exact ⟨rfl, h⟩

end Store

/-- Disturbances tell nothing either. -/
theorem Disturbance.blind {server : Server σ} {k : Login} {alike : σ → σ → Prop}
    (h : server.Blind k alike) :
    (Disturbance.server server).Blind k fun s t => s.1 = t.1 ∧ alike s.2 t.2 := by
  refine ⟨fun s => ⟨rfl, h.refl s.2⟩, ?_, ?_⟩
  · rintro q ⟨coming, s⟩ ⟨_, t⟩ ⟨rfl, hst⟩
    simp only [Disturbance.server]
    rcases meet q.point coming with ⟨_ | failure, rest⟩
    · exact ⟨(h.answers q s t hst).1, rfl, (h.answers q s t hst).2⟩
    · exact ⟨rfl, rfl, hst⟩
  · rintro roles ⟨coming, s⟩ ⟨_, t⟩ ⟨rfl, hst⟩
    simp only [Disturbance.server, Request.point]
    rcases meet .command coming with ⟨_ | failure, rest⟩
    · exact ⟨(h.creates roles s t hst).1, rfl, (h.creates roles s t hst).2⟩
    · exact ⟨rfl, rfl, hst⟩

end InitialLoad
