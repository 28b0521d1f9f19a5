import InitialLoad.Entity.Document
import InitialLoad.Entity.Reading
import InitialLoad.Server.Procedure
import InitialLoad.Server.Store
import InitialLoad.Value.Sorting

/-!
# The steps of a seed

What can be done to one app store database: create the application's database
user, create the indexes, insert apps and users, seed everything, and read back.
Every step is made of calls in a fixed order, and the first that fails ends it.

Two refusals of the server are reported as a duplicate entity, with the refusal
as their cause: creating a database user that exists, and inserting a document
that repeats a key.  Every other failure is passed on as it is.
-/

namespace InitialLoad.Seeding

/-- The logger of the steps. -/
def logger : Text := "appstore_seed.services.seed_service"

/-- The collection of apps of a database. -/
def appsOf (database : Text) : Place := ⟨database, Layout.apps⟩

/-- The collection of users of a database. -/
def usersOf (database : Text) : Place := ⟨database, Layout.users⟩

/-- A grant as a reader sees it: the role at its database. -/
def grantWording (grant : Value) : Except Failure Text := do
  let role ← grant.member "role"
  let db ← grant.member "db"
  return Text.join [role.wording, "@", db.wording]

/-- The grants as a reader sees them. -/
def grantWordings : List Value → Except Failure (List Text)
  | [] => .ok []
  | grant :: rest => do
    let first ← grantWording grant
    let more ← grantWordings rest
    return first :: more

/-- The grants of a principal in one line. -/
def grantsLine (principal : Value) : Except Failure Text := do
  let roles ← principal.member "roles"
  let grants ← roles.items
  return Text.separated ", " (← grantWordings grants)

/-- What to make of a failure to create a database user. -/
def whenUserRefused (user : Value) (f : Failure) : Failure :=
  if f.problem.isRefusalWith Store.userExistsCode then
    Failure.because (.duplicateEntity (.text "user") user) f
  else f

/-- Creates the application's database user. -/
def createAppUser (database : Text) (principal : Value) : Job Unit := do
  let user ← Job.ofExcept (principal.member "user")
  let command ← Job.ofExcept principal.toCommand
  (Job.request (.createUser database user command.pwd command.roles)).recover fun f =>
    Job.fail (whenUserRefused user f)
  let grants ← Job.ofExcept (grantsLine principal)
  Job.info logger (Text.join ["Created user '", user.wording, "' with roles: ", grants])

/-- Creates one index; its definition has to name the keys, and whatever else it says is
an option. -/
def createIndex (place : Place) (definition : Document) : Job Unit :=
  match definition.get? "keys" with
  | none => Job.fail (Failure.of (.missingKey (.text "keys")))
  | some keys => Job.request (.createIndex place keys (definition.erase "keys"))

/-- Creates indexes, one after the other. -/
def createIndexes (place : Place) : List Document → Job Unit
  | [] => pure ()
  | definition :: rest => do
    createIndex place definition
    createIndexes place rest

/-- Creates the indexes of a table, collection by collection. -/
def ensureIndexes (database : Text) : IndexTable → Job Unit
  | [] => pure ()
  | (collection, definitions) :: rest => do
    createIndexes ⟨database, collection⟩ definitions
    ensureIndexes database rest

/-- What to make of a failure to insert the document of an element. -/
def whenInsertRefused (collection : Text) (element : Value) (f : Failure) : Failure :=
  if f.problem.isDuplicateKey then
    match element.member "id" with
    | .ok id => Failure.because (.duplicateEntity (.text collection) id) f
    | .error g => g
  else f

/-- Inserts the document of one element. -/
def insertOne (place : Place) (element : Value) : Job Unit := do
  let doc ← Job.ofExcept element.toDocument
  (Job.request (.insertOne place doc)).recover fun f =>
    Job.fail (whenInsertRefused place.collection element f)

/-- Inserts elements, one after the other. -/
def insertEach (place : Place) : List Value → Job Unit
  | [] => pure ()
  | element :: rest => do
    insertOne place element
    insertEach place rest

/-- Inserts elements in order, and says how many. -/
def insertAll (place : Place) (elements : List Value) : Job Nat := do
  insertEach place elements
  Job.info logger (Text.join ["Inserted ", Text.ofNat elements.length, " documents into '",
    place.collection, "'"])
  return elements.length

/-- Inserts apps in order. -/
def insertApps (database : Text) (apps : List Value) : Job Nat := insertAll (appsOf database) apps

/-- Inserts users in order. -/
def insertUsers (database : Text) (users : List Value) : Job Nat :=
  insertAll (usersOf database) users

/-- What a complete seed reports. -/
structure Summary where
  principal : Value
  database : Text
  apps : Nat
  users : Nat
  elapsed : Double

/-- Seconds between two readings of the clock, to two places. -/
def elapsedSeconds (start finish : Int) : Double := (Double.ofMicros (finish - start)).roundPlaces 2

/-- Seeds a database: the user first, then the indexes, the apps and the users. -/
def seed (database : Text) (table : IndexTable) (principal : Value) (apps users : List Value) :
    Job Summary := do
  let start ← Job.now
  Job.info logger (Text.join ["Seeding database '", database, "'"])
  createAppUser database principal
  ensureIndexes database table
  let appCount ← insertApps database apps
  let userCount ← insertUsers database users
  let finish ← Job.now
  let user ← Job.ofExcept (principal.member "user")
  return ⟨user, database, appCount, userCount, elapsedSeconds start finish⟩

/-- The entity that a document found by its identifier describes, if one was found. -/
def readFound (kind : Kind) : Option Document → Except Failure (Option Value)
  | none => .ok none
  | some doc => (kind.read doc).map some

/-- The app with an identifier. -/
def getApp (database : Text) (id : Value) : Job (Option Value) := do
  let found ← Job.request (.findOne (appsOf database) id)
  Job.ofExcept (readFound .app found)

/-- The user with an identifier. -/
def getUser (database : Text) (id : Value) : Job (Option Value) := do
  let found ← Job.request (.findOne (usersOf database) id)
  Job.ofExcept (readFound .user found)

/-- The identifiers in documents. -/
def idsOf : List Document → Except Failure (List Value)
  | [] => .ok []
  | doc :: rest =>
    match doc.get? "id" with
    | none => .error (Failure.of (.missingKey (.text "id")))
    | some id => (idsOf rest).map (id :: ·)

/-- The identifiers in documents, sorted. -/
def sortedIds (docs : List Document) : Except Failure (List Value) := do
  let ids ← idsOf docs
  match Value.sorted ids with
  | .ok sorted => return sorted
  | .error pair => .error (Failure.of (.incomparable pair))

/-- The identifiers that are present. -/
structure Present where
  apps : List Value
  users : List Value

/-- The sorted identifiers of the documents at a place that have one. -/
def presentIds (place : Place) : Job (List Value) := do
  let docs ← Job.request (.findIds place)
  Job.ofExcept (sortedIds docs)

/-- Reads back which identifiers are present. -/
def verify (database : Text) : Job Present := do
  let apps ← presentIds (appsOf database)
  let users ← presentIds (usersOf database)
  return ⟨apps, users⟩

end InitialLoad.Seeding
