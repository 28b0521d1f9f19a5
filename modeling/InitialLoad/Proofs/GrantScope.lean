import InitialLoad.Proofs.SeederHistories
import InitialLoad.Server.Store

/-!
# The scope of the grant

A run asks for the settings three times, for the client, for the database and for
the database user, and the client may be older than the settings.  All the same the
one grant of the database user is for the database that is seeded:
`grant_scoped` says that all calls of a run that name a database name that of
one and the same settings, from which the database user and the grant are too.
-/

namespace InitialLoad

/-- The database that a call names. -/
def Request.database? : Request → Option Text
  | .createUser database _ _ _ => some database
  | .createIndex place _ _ => some place.database
  | .insertOne place _ => some place.database
  | .findOne place _ => some place.database
  | .findIds place => some place.database
  | _ => none

theorem Request.database_of_agrees {v : Settings} {q : Request} (h : q.AgreesWith v)
    {database : Text} (hdatabase : q.database? = some database) : database = v.databaseName := by
  cases q with
  | createUser name user pwd roles =>
      cases hdatabase
      exact h.1
  | connect uri => cases hdatabase
  | close => cases hdatabase
  | ping => cases hdatabase
  | _ =>
      cases hdatabase
      exact h

theorem Request.needsSettings_of_database {q : Request} {database : Text}
    (h : q.database? = some database) : q.NeedsSettings := by
  cases q with
  | close => cases h
  | ping => cases h
  | _ => trivial

namespace Seeder

variable {σ : Type}

/-- **The grant is scoped to the database that is seeded.**  After every history,
whatever became of it, a moment that creates a database user does so with the name
and the password in the settings at that time, on the database in them, with one
grant, for that database; and no call of the moment names another database. -/
theorem grant_scoped (server : Server σ) (w : Situation σ) (history : List Moment) (m : Moment)
    (hcreates : ∃ database user pwd roles,
      .createUser database user pwd roles ∈ m.calls server (after server history w)) :
    let u := after server history w
    ∃ v, u.seeder.resolution.1 = .ok v ∧ (m.after server u).seeder.settings = some v ∧
      (∀ database user pwd roles, .createUser database user pwd roles ∈ m.calls server u →
        database = v.databaseName ∧ user = .text v.userName ∧ pwd = .text v.userPassword ∧
          roles = [.object [("role", .text v.userRole), ("db", .text v.databaseName)]]) ∧
      ∀ q ∈ m.calls server u, ∀ database, q.database? = some database →
        database = v.databaseName := by
  intro u
  obtain ⟨database, user, pwd, roles, hcreate⟩ := hcreates
  obtain ⟨v, hresolution, hv, -⟩ := Moment.calls_agree hcreate trivial
  -- All calls agree with the settings that are kept, and these are the same for all.
  have hagree : ∀ q ∈ m.calls server u, q.NeedsSettings → q.AgreesWith v := by
    intro q hq hneeds
    obtain ⟨v', -, hv', hagrees⟩ := Moment.calls_agree hq hneeds
    rw [hv] at hv'
    cases hv'
    exact hagrees
  refine ⟨v, hresolution, hv, ?_, ?_⟩
  · intro database user pwd roles hmem
    exact hagree _ hmem trivial
  · intro q hq database hdatabase
    have hneeds := Request.needsSettings_of_database hdatabase
    exact Request.database_of_agrees (hagree q hq hneeds) hdatabase

/-- A client is made, and then another database is chosen: the run seeds the other
one over the old client, and grants the role there. -/
theorem grant_scoped_older_client :
    let history : List Moment := [⟨.getClient, []⟩,
      ⟨.setVariable "APPSTORE_DB_NAME" "other", []⟩, ⟨.clearSettings, []⟩]
    let u := after Store.server history ⟨{}, .empty⟩
    let calls := Moment.calls Store.server ⟨.run Layout.declaredIndexes, []⟩ u
    u.seeder.client = some "mongodb://mongodb:27017" ∧
      (∃ user pwd, .createUser "other" user pwd
        [.object [("role", .text "readWrite"), ("db", .text "other")]] ∈ calls) ∧
      ∀ q ∈ calls, ∀ database, q.database? = some database → database = "other" := by
  intro history u calls
  have hclient : u.seeder.client = some "mongodb://mongodb:27017" := by decide +kernel
  have hresolution : u.seeder.resolution.1.toOption.map (fun v => (v.databaseName, v.userRole)) =
      some (("other" : Text), ("readWrite" : Text)) := by decide +kernel
  have hcreated : calls.any (fun q => q matches .createUser ..) = true := by decide +kernel
  obtain ⟨q, hq, hcreate⟩ := List.any_eq_true.mp hcreated
  cases q with
  | createUser database user pwd roles =>
      obtain ⟨v, hv, -, huser, hscope⟩ := grant_scoped Store.server ⟨{}, .empty⟩ history
        ⟨.run Layout.declaredIndexes, []⟩ ⟨database, user, pwd, roles, hq⟩
      rw [show u.seeder.resolution.1 = .ok v from hv] at hresolution
      obtain ⟨hname, hrole⟩ : v.databaseName = "other" ∧ v.userRole = "readWrite" := by
        simpa [Except.toOption] using hresolution
      obtain ⟨rfl, rfl, rfl, rfl⟩ := huser database user pwd roles hq
      rw [hname, hrole] at hq
      rw [hname] at hscope
      exact ⟨hclient, ⟨_, _, hq⟩, hscope⟩
  | _ => cases hcreate

end Seeder

end InitialLoad
