import InitialLoad.Proofs.ProgramRun
import InitialLoad.Proofs.TwoRuns

/-!
# The password is not told

The password of the application's database user goes through the whole program, in
the settings and in the principal, and every failure and every record is made of
what is at hand.  All the same nothing depends on it but the one call that it is
for: two programs whose settings differ in the password are alike, part by part, and
so are two seeds whose principals do.
-/

namespace InitialLoad

variable {σ α : Type}

/-- Two runs tell the same: they end with the same result and leave the same log, and
their calls and what they leave of the server differ only in the password of the
database user. -/
structure Outcome.TellsSame (k : Login) (alike : σ → σ → Prop) (related : α → α → Prop)
    (o o' : Outcome σ α) : Prop where
  result : related o.result o'.result
  records : Event.records o.events = Event.records o'.events
  calls : List.Forall₂ (Request.Alike k) (Event.calls o.events) (Event.calls o'.events)
  state : alike o.state o'.state
  clock : o.clock = o'.clock

theorem Outcome.Alike.tellsSame {k : Login} {alike : σ → σ → Prop} {related related' : α → α → Prop}
    {o o' : Outcome σ α} (h : Outcome.Alike k alike related o o')
    (hrelated : ∀ a b, related a b → related' a b) : TellsSame k alike related' o o' :=
  ⟨hrelated _ _ h.result, Event.records_of_alike h.events, Event.calls_of_alike h.events, h.state,
    h.clock⟩

/-! ## Seeds -/

/-- The record of a database user, whatever its fields hold; `toValue` is one where they
hold texts and grants. -/
def DatabaseUser.recordOf (user pwd roles : Value) : Value :=
  .record .databaseUser [("user", user), ("pwd", pwd), ("roles", roles)]

namespace Seeding

open DatabaseUser (recordOf)

/-- The commands have the same grants. -/
theorem toCommand_alike (user pwd pwd' roles : Value) :
    Matching (fun c c' => ∃ grants, c = ⟨pwd, grants⟩ ∧ c' = ⟨pwd', grants⟩)
      (recordOf user pwd roles).toCommand (recordOf user pwd' roles).toCommand := by
  have hcommand : ∀ pwd, (recordOf user pwd roles).toCommand =
      (roles.items >>= Value.toObjects).map fun grants => ⟨pwd, grants⟩ := by
    intro pwd
    show (roles.items >>= fun grants => Value.toObjects grants >>= fun objects =>
      Except.ok (Value.Credentials.mk pwd objects)) = _
    cases roles.items with
    | error f => rfl
    | ok grants =>
        show (Value.toObjects grants >>= fun objects =>
          Except.ok (Value.Credentials.mk pwd objects)) = (Value.toObjects grants).map _
        cases Value.toObjects grants <;> rfl
  rw [hcommand, hcommand]
  cases roles.items >>= Value.toObjects with
  | error f => exact .error f
  | ok grants => exact .ok ⟨grants, rfl, rfl⟩

theorem createAppUser_alike (database : Text) (user pwd pwd' roles : Value) :
    Job.Alike ⟨database, user, pwd, pwd'⟩ Eq (createAppUser database (recordOf user pwd roles))
      (createAppUser database (recordOf user pwd' roles)) := by
  have huser : Job.Alike ⟨database, user, pwd, pwd'⟩ (fun a b => a = user ∧ b = user)
      (Job.ofExcept ((recordOf user pwd roles).member "user"))
      (Job.ofExcept ((recordOf user pwd' roles).member "user")) := .ofExcept (.ok ⟨rfl, rfl⟩)
  refine huser.bind ?_
  rintro _ _ ⟨rfl, rfl⟩
  refine (Job.Alike.ofExcept (toCommand_alike _ pwd pwd' roles)).bind ?_
  rintro _ _ ⟨grants, rfl, rfl⟩
  -- This is the call for which the password is; what becomes of it does not depend on it.
  have hcreate : ∀ user, Job.Alike ⟨database, user, pwd, pwd'⟩ Eq
      ((Job.request (.createUser database user pwd grants)).recover fun f =>
        Job.fail (whenUserRefused user f))
      ((Job.request (.createUser database user pwd' grants)).recover fun f =>
        Job.fail (whenUserRefused user f)) := by
    intro user
    refine Procedure.Alike.createUser fun answer => ?_
    cases answer with
    | error f => exact .done (.error _)
    | ok a => exact .done (.ok rfl)
  exact (hcreate _).bind fun _ _ _ => .refl _

/-- **Seeds for principals that differ in the password** are alike. -/
theorem seed_alike (database : Text) (table : IndexTable) (user pwd pwd' roles : Value)
    (apps users : List Value) :
    Job.Alike ⟨database, user, pwd, pwd'⟩ Eq
      (seed database table (recordOf user pwd roles) apps users)
      (seed database table (recordOf user pwd' roles) apps users) := by
  refine .after _ fun start => .after _ fun _ => ?_
  refine (createAppUser_alike database user pwd pwd' roles).bind fun _ _ _ => ?_
  exact .refl _

end Seeding

namespace Seeder

/-! ## Seeders -/

/-- The settings of the seeders are the same, except for the password. -/
structure Alike (v : Settings) (pwd : Text) (x y : Seeder) : Prop where
  client : x.client = y.client
  names : x.nameRefusal? = y.nameRefusal?
  first : x.resolution.1 = .ok v
  second : y.resolution.1 = .ok { v with userPassword := pwd }
  reports : x.resolution.2 = y.resolution.2

namespace Alike

variable {v : Settings} {pwd : Text} {x y : Seeder}

/-- They are so when the settings were asked for. -/
theorem remembering (h : Alike v pwd x y) : Alike v pwd x.remembering y.remembering := by
  have hx := resolution_of_settings (settings_remembering h.first)
  have hy := resolution_of_settings (settings_remembering h.second)
  refine ⟨?_, ?_, by rw [hx], by rw [hy], by rw [hx, hy]⟩
  · rw [client_remembering, client_remembering, h.client]
  · rw [nameRefusal_remembering, nameRefusal_remembering, h.names]

theorem withClient (h : Alike v pwd x y) (client : Option Text) :
    Alike v pwd { x with client } { y with client } :=
  ⟨rfl, h.names, h.first, h.second, h.reports⟩

end Alike

section

variable (v : Settings) (pwd : Text)

/-- The database user of the application by the settings, with the password that they
say and with the other one. -/
def login : Login := ⟨v.databaseName, .text v.userName, .text v.userPassword, .text pwd⟩

theorem getSettings_alike :
    Action.Alike (login v pwd) (Alike v pwd) (fun a b => a = v ∧ b = { v with userPassword := pwd })
      getSettings getSettings := by
  intro x y h
  rw [run_getSettings, run_getSettings, h.first, h.second, h.reports]
  exact .writing _ (.done ⟨.ok ⟨rfl, rfl⟩, h.remembering⟩)

theorem getClient_alike : Action.Alike (login v pwd) (Alike v pwd) Eq getClient getClient := by
  refine Action.Alike.state.bind fun a b h => ?_
  rw [h.client]
  cases b.client with
  | some uri => exact .pure rfl
  | none =>
      refine (getSettings_alike v pwd).bind ?_
      rintro _ _ ⟨rfl, rfl⟩
      refine (Action.Alike.ofJob (.refl _)).bind fun _ _ _ => ?_
      exact (Action.Alike.update fun x y h => h.withClient _).bind fun _ _ _ => .pure rfl

theorem chosenName_alike :
    Action.Alike (login v pwd) (Alike v pwd) (fun a b => a = v.databaseName ∧ b = v.databaseName)
      (chosenName none) (chosenName none) := by
  refine (getSettings_alike v pwd).bind ?_
  rintro _ _ ⟨rfl, rfl⟩
  exact .pure ⟨rfl, rfl⟩

theorem getDatabase_alike :
    Action.Alike (login v pwd) (Alike v pwd) (fun a b => a = v.databaseName ∧ b = v.databaseName)
      (getDatabase none) (getDatabase none) := by
  refine (getClient_alike v pwd).bind fun _ _ _ => (chosenName_alike v pwd).bind ?_
  rintro _ _ ⟨rfl, rfl⟩
  refine Action.Alike.state.bind fun x y h => .ofJob (.ofExcept ?_)
  rw [databaseNamed_congr h.names]
  cases hnamed : y.databaseNamed v.databaseName with
  | error f => exact .error f
  | ok database => exact .ok ⟨databaseNamed_ok hnamed, databaseNamed_ok hnamed⟩

theorem ping_alike : Action.Alike (login v pwd) (Alike v pwd) Eq ping ping :=
  (getClient_alike v pwd).bind fun _ _ _ => .ofJob (.refl _)

theorem seed_alike (table : IndexTable) :
    Action.Alike (login v pwd) (Alike v pwd) Eq (seed table v.databaseName none)
      (seed table v.databaseName none) := by
  rw [seed_eq]
  refine (getSettings_alike v pwd).bind ?_
  rintro _ _ ⟨rfl, rfl⟩
  exact .ofJob (Seeding.seed_alike _ table _ _ _ _ _ _)

theorem write_alike (level : Level) (message : Text) :
    Action.Alike (login v pwd) (Alike v pwd) Eq (write level message) (write level message) :=
  .writeAll _

/-- **Runs by settings that differ in the password** are alike. -/
theorem run_alike (table : IndexTable) :
    Action.Alike (login v pwd) (Alike v pwd) Eq (run table) (run table) := by
  refine (ping_alike v pwd).bind fun _ _ _ => (write_alike v pwd _ _).bind fun _ _ _ => ?_
  refine (getDatabase_alike v pwd).bind ?_
  rintro _ _ ⟨rfl, rfl⟩
  refine (seed_alike v pwd table).bind ?_
  rintro summary _ rfl
  refine (write_alike v pwd _ _).bind fun _ _ _ => (Action.Alike.ofJob (.refl _)).bind ?_
  rintro present _ rfl
  exact (write_alike v pwd _ _).bind fun _ _ _ => .pure rfl

theorem closeClient_alike :
    Action.Alike (login v pwd) (Alike v pwd) Eq closeClient closeClient := by
  refine Action.Alike.state.bind fun a b h => ?_
  rw [h.client]
  cases b.client with
  | none => exact .pure rfl
  | some uri =>
      refine (Action.Alike.ofJob (.refl _)).bind fun _ _ _ => ?_
      exact .update fun x y h => h.withClient none

/-- **Programs by settings that differ in the password** are alike. -/
theorem exitStatus_alike (table : IndexTable) :
    Action.Alike (login v pwd) (Alike v pwd) Eq (exitStatus table) (exitStatus table) := by
  refine (run_alike v pwd table).attempt.bind ?_
  intro result result' h
  rw [h.eq]
  cases result' with
  | ok summary => exact (closeClient_alike v pwd).bind fun _ _ _ => .pure rfl
  | error f =>
      simp only
      split
      · exact (closeClient_alike v pwd).bind fun _ _ _ => .fail f
      · refine (write_alike v pwd _ _).bind fun _ _ _ => ?_
        exact (closeClient_alike v pwd).bind fun _ _ _ => .pure rfl

end

end Seeder

/-! ## The whole program -/

open Seeder in
/-- **The password is not told.**  Against every server that does not see which of two
passwords it is, the run and the whole program tell the same by settings that differ only
in the password, and so do two seeds for principals that differ only in it, whatever is
seeded. -/
theorem password_not_told (server : Server σ) (table : IndexTable) (s : σ) (c : Clock) :
    (∀ (v : Settings) (pwd : Text) (alike : σ → σ → Prop),
      server.Blind (login v pwd) alike → ∀ x y : Seeder, Alike v pwd x y →
        Outcome.TellsSame (login v pwd) alike
            (fun r r' => r.1 = r'.1 ∧ Alike v pwd r.2 r'.2)
            (Action.outcome server (run table) x s c)
            (Action.outcome server (run table) y s c) ∧
          Outcome.TellsSame (login v pwd) alike
            (fun r r' => r.1 = r'.1 ∧ Alike v pwd r.2 r'.2)
            (Action.outcome server (exitStatus table) x s c)
            (Action.outcome server (exitStatus table) y s c)) ∧
      ∀ (k : Login) (alike : σ → σ → Prop), server.Blind k alike →
        ∀ (roles : Value) (apps users : List Value),
          Outcome.TellsSame k alike Eq
            (Job.outcome server (Seeding.seed k.database table
              (DatabaseUser.recordOf k.user k.first roles) apps users) s c)
            (Job.outcome server (Seeding.seed k.database table
              (DatabaseUser.recordOf k.user k.second roles) apps users) s c) := by
  refine ⟨?_, ?_⟩
  · intro v pwd alike hblind x y hxy
    have hsame : ∀ {α : Type} {action : Action α},
        Action.Alike (login v pwd) (Alike v pwd) Eq action action →
        Outcome.TellsSame (login v pwd) alike
          (fun r r' => r.1 = r'.1 ∧ Alike v pwd r.2 r'.2) (Action.outcome server action x s c)
          (Action.outcome server action y s c) := by
      intro α action haction
      have hrun := (haction x y hxy).run hblind (hblind.refl s) c
      exact hrun.tellsSame fun r r' hr => ⟨hr.1.eq, hr.2⟩
    exact ⟨hsame (run_alike v pwd table), hsame (exitStatus_alike v pwd table)⟩
  · intro k alike hblind roles apps users
    have hseeds := Seeding.seed_alike k.database table k.user k.first k.second roles apps users
    have hrun := Procedure.Alike.run hblind hseeds (hblind.refl s) c
    exact hrun.tellsSame fun r r' hr => hr.eq

open Seeder in
/-- Two programs that differ in a variable with the password both load a store; the
stores differ in that password and in nothing else. -/
theorem password_not_told_variable :
    let y : Seeder := { environment := [("APP_USER_PASSWORD", "other")] }
    let o := Action.outcome Store.server (exitStatus Layout.declaredIndexes) {} .empty []
    let o' := Action.outcome Store.server (exitStatus Layout.declaredIndexes) y .empty []
    o.result.1 = .ok 0 ∧ o'.result.1 = .ok 0 ∧ Event.records o.events = Event.records o'.events ∧
      Store.Alike ⟨"appstore", .text "You", .text "SuperSecure", .text "other"⟩ o.state
        o'.state ∧
      o.state.accounts.map (fun a => a.pwd.wording) = ["SuperSecure"] ∧
      o'.state.accounts.map (fun a => a.pwd.wording) = ["other"] := by
  intro y o o'
  let v : Settings := .of SettingName.default
  have hxy : Alike v "other" {} y := by
    refine ⟨rfl, rfl, ok_of_toOption ?_, ok_of_toOption ?_, rfl⟩
    · decide +kernel
    · decide +kernel
  have hblind : Store.server.Blind (login v "other") (Store.Alike (login v "other")) :=
    Store.blind (by decide +kernel) (by decide +kernel)
  have hsame :=
    (password_not_told Store.server Layout.declaredIndexes .empty []).1 v "other" _ hblind {} y hxy
  have hzero : o.result.1.toOption = some 0 := by decide +kernel
  have hstored : o.state.accounts.map (fun a => a.pwd.wording) = [("SuperSecure" : Text)] := by
    decide +kernel
  have hother : o'.state.accounts.map (fun a => a.pwd.wording) = [("other" : Text)] := by
    decide +kernel
  have hok := ok_of_toOption hzero
  exact ⟨hok, hsame.2.result.1 ▸ hok, hsame.2.records, hsame.2.state, hstored, hother⟩

end InitialLoad
