import InitialLoad.Server.Collection
import InitialLoad.Server.Procedure

/-!
# The store

A server that keeps its data in memory: database users and collections, each
collection under its database.  `Store.server` answers every request and keeps
the store as it was when a request is refused; a request that cannot be written
never reaches the data.
-/

namespace InitialLoad

/-- A database user as the server keeps it. -/
structure Account where
  database : Text
  user : Value
  pwd : Value
  roles : List Value

/-- Database users in order of creation, and the collections. -/
structure Store where
  accounts : List Account := []
  collection : Place → Collection := fun _ => .empty

namespace Store

/-- The store that has nothing yet. -/
def empty : Store := ⟨[], fun _ => .empty⟩

/-- The store with one collection replaced. -/
def setCollection (place : Place) (c : Collection) (s : Store) : Store :=
  { s with collection := fun p => if p = place then c else s.collection p }

/-- A database user of this name exists on the database. -/
def hasUser (database : Text) (user : Value) (s : Store) : Bool :=
  s.accounts.any fun a => a.database = database && a.user.same user

/-- The code of the refusal to create a database user that exists. -/
def userExistsCode : Int := 51003

/-- What is said of a database user that exists. -/
def userExists (database : Text) (user : Value) : Failure :=
  Failure.of (.refused .operation
    (Text.join ["User \"", user.wording, "@", database, "\" already exists"])
    (some userExistsCode))

/-- Creates a database user. -/
def createUser (account : Account) (s : Store) : Except Failure Store :=
  if s.hasUser account.database account.user then
    .error (userExists account.database account.user)
  else .ok { s with accounts := s.accounts ++ [account] }

/-- Changes one collection, unless the change is refused. -/
def updateCollection (place : Place) (change : Collection → Except Failure Collection)
    (s : Store) : Except Failure Store :=
  (change (s.collection place)).map fun c => s.setCollection place c

/-- The answer of a change: nothing but its success, and the store it leaves. -/
def settle (s : Store) : Except Failure Store → Except Failure Unit × Store
  | .ok changed => (.ok (), changed)
  | .error f => (.error f, s)

/-- A change of a collection succeeds when the collection takes it, and then nothing else
has changed. -/
theorem settle_updateCollection_ok_iff {place : Place}
    {change : Collection → Except Failure Collection} {s t : Store} :
    s.settle (s.updateCollection place change) = (.ok (), t) ↔
      ∃ c, change (s.collection place) = .ok c ∧ t = s.setCollection place c := by
  unfold updateCollection
  cases hchange : change (s.collection place) with
  | error f => simp [Except.map, settle]
  | ok c => simp [Except.map, settle, eq_comm]

/-- It fails when the collection refuses it, and then nothing has changed. -/
theorem settle_updateCollection_error_iff {place : Place}
    {change : Collection → Except Failure Collection} {s t : Store} {f : Failure} :
    s.settle (s.updateCollection place change) = (.error f, t) ↔
      change (s.collection place) = .error f ∧ t = s := by
  unfold updateCollection
  cases hchange : change (s.collection place) with
  | error g => simp [Except.map, settle, eq_comm]
  | ok c => simp [Except.map, settle]

/-- The answer to a sign of life. -/
def alive : Document := [("ok", .double (.finite false Double.one))]

/-- The answer to a request that was written, and the store afterwards. -/
def carryOut : (q : Request) → Store → Except Failure q.Answer × Store
  | .connect _, s => (.ok (), s)
  | .close, s => (.ok (), s)
  | .ping, s => (.ok alive, s)
  | .createUser database user pwd roles, s =>
    s.settle (s.createUser ⟨database, user, pwd, roles⟩)
  | .createIndex place keys options, s =>
    s.settle (s.updateCollection place (Collection.createDescribed keys options))
  | .insertOne place doc, s => s.settle (s.updateCollection place (Collection.insert doc))
  | .findOne place id, s => (.ok ((s.collection place).find? "id" id), s)
  | .findIds place, s => (.ok ((s.collection place).project "id"), s)

/-- The answer to a request, and the store afterwards. -/
def answer (q : Request) (s : Store) : Except Failure q.Answer × Store :=
  match q.obstacle? with
  | some problem => (.error (Failure.of problem), s)
  | none => carryOut q s

/-- The store as a server. -/
def server : Server Store := ⟨answer⟩

theorem answer_of_written {q : Request} (h : q.obstacle? = none) (s : Store) :
    server.answer q s = carryOut q s := by
  simp [server, answer, h]

theorem answer_of_obstacle {q : Request} {problem : Problem} (h : q.obstacle? = some problem)
    (s : Store) : server.answer q s = (.error (Failure.of problem), s) := by
  simp [server, answer, h]

/-- A request is carried out, or it cannot be written and nothing happens. -/
theorem answer_cases (q : Request) (s : Store) :
    q.obstacle? = none ∧ answer q s = carryOut q s ∨
      ∃ problem, q.obstacle? = some problem ∧ answer q s = (.error (Failure.of problem), s) := by
  cases h : q.obstacle? with
  | none => exact Or.inl ⟨rfl, answer_of_written h s⟩
  | some problem => exact Or.inr ⟨problem, rfl, answer_of_obstacle h s⟩

/-- A request that was accepted has been carried out. -/
theorem carriedOut_of_accepted {q : Request} {a : q.Answer} {s t : Store}
    (h : server.answer q s = (.ok a, t)) : q.obstacle? = none ∧ carryOut q s = (.ok a, t) := by
  rcases answer_cases q s with ⟨hwritten, hanswer⟩ | ⟨problem, -, hanswer⟩
  · exact ⟨hwritten, hanswer.symm.trans h⟩
  · cases hanswer.symm.trans h

/-- An insertion that was accepted has changed its collection and nothing else. -/
theorem insert_of_accepted {place : Place} {doc : Document} {s t : Store} {a : Unit}
    (h : server.answer (.insertOne place doc) s = (.ok a, t)) :
    ∃ c, (s.collection place).insert doc = .ok c ∧ t = s.setCollection place c :=
  settle_updateCollection_ok_iff.mp (carriedOut_of_accepted h).2

/-- The database users in the order of databases and names. -/
def accountList (s : Store) : List Account :=
  s.accounts.mergeSort fun a b =>
    a.database.before b.database ||
      (a.database = b.database && !b.user.wording.before a.user.wording)

end Store

end InitialLoad
