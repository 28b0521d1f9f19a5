import InitialLoad.Proofs.Course
import InitialLoad.Seeding.Steps

/-!
# The course of a seed

A seed follows one course: create the database user, create the index on apps
and the one on users, insert every app and then every user in the order of the
lists, with a record when the user exists and one after each list.  `loading`
is the part of a seed between its two readings of the clock, and
`loading_enacts` finds its course by composing those of the steps.

What comes of a seed is then what comes of its course, by `seed_outcome`.  A
course that completes gives the summary, and one that stops gives its failure.
-/

namespace InitialLoad

namespace DatabaseUser

/-- The grants of a database user as the server receives them. -/
def grants (p : DatabaseUser) : List Value :=
  p.roles.map fun g => .object [("role", .text g.role), ("db", .text g.db)]

theorem member_user (p : DatabaseUser) : p.toValue.member "user" = .ok (.text p.user) := rfl

theorem toObjects_roles (roles : List RoleGrant) :
    Value.toObjects (roles.map RoleGrant.toValue) =
      .ok (roles.map fun g => .object [("role", .text g.role), ("db", .text g.db)]) := by
  induction roles with
  | nil => rfl
  | cons g rest ih =>
      simp only [List.map_cons, Value.toObjects, ih]
      rfl

/-- A validated database user has a command. -/
theorem toCommand_toValue (p : DatabaseUser) :
    p.toValue.toCommand = .ok ⟨.text p.pwd, p.grants⟩ := by
  have hroles := toObjects_roles p.roles
  show (Value.toObjects (p.roles.map RoleGrant.toValue) >>= fun grants =>
    Except.ok (Value.Credentials.mk (.text p.pwd) grants)) = _
  rw [hroles]
  rfl

end DatabaseUser

namespace Seeding

/-! ## The stages -/

/-- The attempt to create the database user. -/
def creation (database : Text) (p : DatabaseUser) : Stage :=
  .attempt (.ok (.createUser database (.text p.user) (.text p.pwd) p.grants))
    (whenUserRefused (.text p.user))

/-- The attempt to create an index. -/
def indexing (place : Place) (definition : Document) : Stage :=
  .attempt (match definition.get? "keys" with
    | none => .error (Failure.of (.missingKey (.text "keys")))
    | some keys => .ok (.createIndex place keys (definition.erase "keys"))) id

theorem indexing_uniqueId (place : Place) : indexing place Layout.uniqueId =
    .attempt (.ok (.createIndex place Layout.idKeys [("unique", .bool true)])) id := rfl

/-- The attempts to create the indexes of a table. -/
def indexings (database : Text) (table : IndexTable) : List Stage :=
  table.flatMap fun entry => entry.2.map (indexing ⟨database, entry.1⟩)

/-- The call that inserts an element, if the element has a document. -/
def insertCall (place : Place) (element : Value) : Except Failure Request :=
  element.toDocument.map (.insertOne place)

/-- The attempt to insert an element. -/
def insertion (place : Place) (element : Value) : Stage :=
  .attempt (insertCall place element) (whenInsertRefused place.collection element)

/-- An element that has a document is attempted with the call that inserts it. -/
theorem insertion_of_document {element : Value} {doc : Document}
    (h : element.toDocument = .ok doc) (place : Place) :
    insertion place element =
      .attempt (.ok (.insertOne place doc)) (whenInsertRefused place.collection element) := by
  rw [insertion, insertCall, h]
  rfl

/-- The record that opens a seed. -/
def opening (database : Text) : LogRecord :=
  ⟨.info, logger, Text.join ["Seeding database '", database, "'"]⟩

/-- The record of a database user that was created. -/
def created (p : DatabaseUser) : LogRecord :=
  ⟨.info, logger, Text.join ["Created user '", p.user, "' with roles: ",
    Text.separated ", " (p.roles.map fun g => Text.join [g.role, "@", g.db])]⟩

/-- The record of a list that was inserted. -/
def inserted (place : Place) (n : Nat) : LogRecord :=
  ⟨.info, logger, Text.join ["Inserted ", Text.ofNat n, " documents into '",
    place.collection, "'"]⟩

/-- The stages of a seed before its indexes. -/
def userPart (database : Text) (p : DatabaseUser) : List Stage :=
  [.record (opening database), creation database p, .record (created p)]

/-- The stages of a list of elements. -/
def listPart (place : Place) (elements : List Value) : List Stage :=
  elements.map (insertion place) ++ [.record (inserted place elements.length)]

/-! ## The steps follow their stages -/

theorem grantWordings_roles (roles : List RoleGrant) :
    grantWordings (roles.map RoleGrant.toValue) =
      .ok (roles.map fun g => Text.join [g.role, "@", g.db]) := by
  induction roles with
  | nil => rfl
  | cons g rest ih =>
      simp only [List.map_cons, grantWordings, ih]
      rfl

theorem grantsLine_toValue (p : DatabaseUser) :
    grantsLine p.toValue =
      .ok (Text.separated ", " (p.roles.map fun g => Text.join [g.role, "@", g.db])) := by
  have hroles := grantWordings_roles p.roles
  show (grantWordings (p.roles.map RoleGrant.toValue) >>= fun grants =>
    Except.ok (Text.separated ", " grants)) = _
  rw [hroles]
  rfl

theorem createAppUser_enacts (database : Text) (p : DatabaseUser) :
    Enacts (createAppUser database p.toValue) [creation database p, .record (created p)] () := by
  have hcall : Enacts _ [creation database p] () :=
    Enacts.call (.createUser database (.text p.user) (.text p.pwd) p.grants) ()
      (fun _ => rfl) (whenUserRefused (.text p.user))
  have hrecord := Enacts.info logger (created p).message
  have hboth := hcall.bind (f := fun _ => Job.info logger (created p).message) hrecord
  rw [createAppUser, DatabaseUser.member_user, DatabaseUser.toCommand_toValue, grantsLine_toValue]
  exact hboth

theorem createIndex_enacts (place : Place) (definition : Document) :
    Enacts (createIndex place definition) [indexing place definition] () := by
  unfold createIndex indexing
  cases definition.get? "keys" with
  | none => exact Enacts.fail _ _
  | some keys => exact Enacts.request _ _ fun _ => rfl

theorem createIndexes_enacts (place : Place) (definitions : List Document) :
    Enacts (createIndexes place definitions) (definitions.map (indexing place)) () := by
  induction definitions with
  | nil => exact Enacts.pure ()
  | cons definition rest ih => exact (createIndex_enacts place definition).bind ih

theorem ensureIndexes_enacts (database : Text) (table : IndexTable) :
    Enacts (ensureIndexes database table) (indexings database table) () := by
  induction table with
  | nil => exact Enacts.pure ()
  | cons entry rest ih =>
      exact (createIndexes_enacts ⟨database, entry.1⟩ entry.2).bind ih

theorem insertOne_enacts (place : Place) (element : Value) :
    Enacts (insertOne place element) [insertion place element] () := by
  unfold insertOne insertion insertCall
  cases element.toDocument with
  | error f => exact Enacts.fail f ()
  | ok doc => exact Enacts.call (.insertOne place doc) () (fun _ => rfl) _

theorem insertEach_enacts (place : Place) (elements : List Value) :
    Enacts (insertEach place elements) (elements.map (insertion place)) () := by
  induction elements with
  | nil => exact Enacts.pure ()
  | cons element rest ih => exact (insertOne_enacts place element).bind ih

theorem insertAll_enacts (place : Place) (elements : List Value) :
    Enacts (insertAll place elements) (listPart place elements) elements.length :=
  (insertEach_enacts place elements).bind
    ((Enacts.info _ _).bind (Enacts.pure elements.length))

/-! ## The seed -/

/-- The part of a seed between its two readings of the clock. -/
def loading (database : Text) (table : IndexTable) (principal : Value) (apps users : List Value) :
    Job (Nat × Nat) := do
  Job.info logger (Text.join ["Seeding database '", database, "'"])
  createAppUser database principal
  ensureIndexes database table
  let appCount ← insertApps database apps
  let userCount ← insertUsers database users
  return (appCount, userCount)

/-- The course of a seed. -/
def course (database : Text) (table : IndexTable) (p : DatabaseUser) (apps users : List Value) :
    List Stage :=
  .record (opening database) :: creation database p :: .record (created p) ::
    (indexings database table ++
      (apps.map (insertion (appsOf database)) ++
        .record (inserted (appsOf database) apps.length) ::
          (users.map (insertion (usersOf database)) ++
            [.record (inserted (usersOf database) users.length)])))

/-- The course of a seed in the parts that can end it. -/
theorem course_parts (database : Text) (table : IndexTable) (p : DatabaseUser)
    (apps users : List Value) :
    course database table p apps users =
      ((userPart database p ++ indexings database table) ++ listPart (appsOf database) apps) ++
        listPart (usersOf database) users := by
  simp [course, userPart, listPart]

/-- What a complete seed reports when it starts at this clock. -/
def summary (database : Text) (p : DatabaseUser) (apps users : List Value) (clock : Clock) :
    Summary :=
  ⟨.text p.user, database, apps.length, users.length,
    elapsedSeconds (Clock.read clock).1 (Clock.read (Clock.read clock).2).1⟩

theorem loading_enacts (database : Text) (table : IndexTable) (p : DatabaseUser)
    (apps users : List Value) :
    Enacts (loading database table p.toValue apps users) (course database table p apps users)
      (apps.length, users.length) := by
  have happs := insertAll_enacts (appsOf database) apps
  have husers := insertAll_enacts (usersOf database) users
  have hlists := happs.bind (f := fun m => insertUsers database users >>= fun n => pure (m, n))
    (husers.bind (f := fun n => pure (apps.length, n)) (Enacts.pure _))
  have hindexes := (ensureIndexes_enacts database table).bind (f := fun _ => _) hlists
  have huser := (createAppUser_enacts database p).bind (f := fun _ => _) hindexes
  have hall := (Enacts.info logger (opening database).message).bind (f := fun _ => _) huser
  simp only [listPart, List.append_assoc, List.cons_append, List.nil_append,
    List.append_nil] at hall
  exact hall

/-- A seed is its loading between two readings of the clock. -/
theorem seed_eq_loading (database : Text) (table : IndexTable) (p : DatabaseUser)
    (apps users : List Value) :
    seed database table p.toValue apps users = (do
      let start ← Job.now
      let counts ← loading database table p.toValue apps users
      let finish ← Job.now
      return ⟨.text p.user, database, counts.1, counts.2, elapsedSeconds start finish⟩) := by
  simp only [seed, loading, bind_assoc, pure_bind, DatabaseUser.member_user]
  rfl

/-- A seed does its course, between two readings of the clock. -/
theorem seed_run (database : Text) (table : IndexTable) (p : DatabaseUser)
    (apps users : List Value) :
    (seed database table p.toValue apps users).run = .clock fun start =>
      enact (.clock fun finish => .done (.ok ⟨.text p.user, database, apps.length, users.length,
        elapsedSeconds start finish⟩)) (course database table p apps users) := by
  rw [seed_eq_loading]
  show Procedure.clock _ = .clock _
  congr 1
  funext start
  exact (loading_enacts database table p apps users).run_bind _

/-- What comes of a seed is what comes of its course. -/
theorem seed_outcome {σ : Type} (server : Server σ) (database : Text) (table : IndexTable)
    (p : DatabaseUser) (apps users : List Value) (s : σ) (clock : Clock) :
    let progress := perform server (course database table p apps users) s
    let o := Job.outcome server (seed database table p.toValue apps users) s clock
    o.result = (match progress.failure with
        | none => .ok (summary database p apps users clock)
        | some f => .error f) ∧
      o.events = progress.events ∧ o.state = progress.state := by
  intro progress o
  have ho : o = Procedure.run server (seed database table p.toValue apps users).run s clock := rfl
  rw [seed_run, Procedure.run, run_enact] at ho
  cases h : progress.failure with
  | none =>
      rw [show (perform server _ s).failure = none from h] at ho
      rw [ho]
      exact ⟨rfl, List.append_nil _, rfl⟩
  | some f =>
      rw [show (perform server _ s).failure = some f from h] at ho
      rw [ho]
      exact ⟨rfl, rfl, rfl⟩

/-- A seed whose course completes gives its summary. -/
theorem seed_completes {σ : Type} {server : Server σ} {database : Text} {table : IndexTable}
    {p : DatabaseUser} {apps users : List Value} {s t : σ}
    (h : Completes server (course database table p apps users) s t) (clock : Clock) :
    let o := Job.outcome server (seed database table p.toValue apps users) s clock
    o.result = .ok (summary database p apps users clock) ∧ o.state = t := by
  obtain ⟨hresult, -, hstate⟩ := seed_outcome server database table p apps users s clock
  simp only [h.1] at hresult
  exact ⟨hresult, hstate.trans h.2⟩

/-- A seed whose course stops fails in the same way. -/
theorem seed_stops {σ : Type} {server : Server σ} {database : Text} {table : IndexTable}
    {p : DatabaseUser} {apps users : List Value} {s t : σ} {f : Failure}
    (h : Stops server (course database table p apps users) s f t) (clock : Clock) :
    let o := Job.outcome server (seed database table p.toValue apps users) s clock
    o.result = .error f ∧ o.state = t := by
  obtain ⟨hresult, -, hstate⟩ := seed_outcome server database table p apps users s clock
  simp only [h.1] at hresult
  exact ⟨hresult, hstate.trans h.2⟩

/-- The course of a seed that succeeds completes. -/
theorem completes_of_seed {σ : Type} {server : Server σ} {database : Text} {table : IndexTable}
    {p : DatabaseUser} {apps users : List Value} {s : σ} {clock : Clock} {report : Summary} :
    let o := Job.outcome server (seed database table p.toValue apps users) s clock
    o.result = .ok report → Completes server (course database table p apps users) s o.state := by
  intro o h
  obtain ⟨hresult, -, hstate⟩ := seed_outcome server database table p apps users s clock
  rw [h] at hresult
  refine ⟨?_, hstate.symm⟩
  cases hfailure : (perform server (course database table p apps users) s).failure with
  | none => rfl
  | some f =>
      rw [hfailure] at hresult
      cases hresult

end Seeding

end InitialLoad
