import InitialLoad.Proofs.DocumentReading
import InitialLoad.Proofs.Fallible
import InitialLoad.Proofs.Histories
import InitialLoad.Proofs.Stores
import InitialLoad.Seeding.InitialData

/-!
# Reading what was written

A history of operations that write validated entities, on any databases, has a
log for every database: the apps, and the users, whose insertion was accepted,
in order.  The documents of a database are at all times those of its log, for
the insertions that an operation has accepted are the first ones of its list,
and nothing else adds a document or changes one.  So an entity is found by its
identifier exactly when the log has it, and the earliest one of the log is what
is read, field by field.

A read is a call like any other and can be refused, by the server or because its
identifier cannot be written.  `Reads` says what it gives in each case.  No entity
of a log has an identifier that cannot be written, for then its document could
not be written either.
-/

namespace InitialLoad.Seeding

variable {σ ι : Type}

/-- An operation that writes validated entities, apps into apps and users into users. -/
inductive Writing where
  | createAppUser (p : DatabaseUser)
  | ensureIndexes (table : IndexTable)
  | insertApps (apps : List App)
  | insertUsers (users : List User)
  | seed (table : IndexTable) (p : DatabaseUser) (apps : List App) (users : List User)

namespace Writing

/-- The operation on the records of the entities. -/
def operation : Writing → Operation
  | .createAppUser p => .createAppUser p.toValue
  | .ensureIndexes table => .ensureIndexes table
  | .insertApps apps => .insertApps (apps.map App.toValue)
  | .insertUsers users => .insertUsers (users.map User.toValue)
  | .seed table p apps users =>
    .seed table p.toValue (apps.map App.toValue) (users.map User.toValue)

/-- The apps that the operation writes. -/
def apps : Writing → List App
  | .insertApps apps => apps
  | .seed _ _ apps _ => apps
  | _ => []

/-- The users that the operation writes. -/
def users : Writing → List User
  | .insertUsers users => users
  | .seed _ _ _ users => users
  | _ => []

/-- The course of the operation. -/
def course (database : Text) : Writing → List Stage
  | .createAppUser p => [creation database p, .record (created p)]
  | .ensureIndexes table => indexings database table
  | .insertApps apps => listPart (appsOf database) (apps.map App.toValue)
  | .insertUsers users => listPart (usersOf database) (users.map User.toValue)
  | .seed table p apps users =>
    Seeding.course database table p (apps.map App.toValue) (users.map User.toValue)

end Writing

/-- A writing in a history: on which database it is done, and by which clock. -/
structure WritingStep where
  database : Text
  writing : Writing
  clock : Clock

namespace WritingStep

/-- The step of the operation. -/
def step (w : WritingStep) : Step := ⟨w.database, w.writing.operation, w.clock⟩

/-- The documents whose insertion at a place was accepted in the step. -/
def insertions (server : Server σ) (w : WritingStep) (s : σ) (place : Place) : List Document :=
  (w.step.accepted server s).filterMap (Request.insertion? place)

end WritingStep

/-! ## The calls of a writing -/

/-- The documents that calls would insert at a place. -/
def insertionsAt (place : Place) (requests : List (Except Failure Request)) : List Document :=
  requests.filterMap fun request => request.toOption.bind (Request.insertion? place)

theorem insertionsAt_append (place : Place) (xs ys : List (Except Failure Request)) :
    insertionsAt place (xs ++ ys) = insertionsAt place xs ++ insertionsAt place ys :=
  List.filterMap_append

theorem insertionsAt_map_ok (place : Place) (requests : List Request) :
    insertionsAt place (requests.map .ok) = requests.filterMap (Request.insertion? place) := by
  simp [insertionsAt, List.filterMap_map, Except.toOption]

/-- Creating indexes inserts nothing. -/
theorem insertionsAt_indexings (place : Place) (database : Text) (table : IndexTable) :
    insertionsAt place (Stage.requests (indexings database table)) = [] := by
  rw [insertionsAt, List.filterMap_eq_nil_iff]
  intro request hrequest
  simp only [Stage.requests, indexings, List.mem_filterMap, List.mem_flatMap, List.mem_map]
    at hrequest
  obtain ⟨stage, ⟨entry, -, definition, -, rfl⟩, hstage⟩ := hrequest
  simp only [indexing, Stage.request?, Option.some.injEq] at hstage
  subst hstage
  cases definition.get? "keys" <;> rfl

/-- The calls of a list insert the documents of its entities, at their place. -/
theorem insertionsAt_listPart {element : ι → Value} {id : ι → Int} {document : ι → Document}
    (hdocumented : ∀ x, Documented (element x) (id x) (document x)) (place other : Place)
    (xs : List ι) :
    insertionsAt place (Stage.requests (listPart other (xs.map element))) =
      if other = place then xs.map document else [] := by
  have hrecord : ∀ entry, insertionsAt place (Stage.requests [.record entry]) = [] := fun _ => rfl
  rw [listPart, Stage.requests_append, insertionsAt_append, hrecord, List.append_nil]
  induction xs with
  | nil => simp [insertionsAt]
  | cons x rest ih =>
      have hrequest : Stage.requests [insertion other (element x)] =
          [.ok (.insertOne other (document x))] := by
        rw [insertion, insertCall, (hdocumented x).toDocument]
        rfl
      have hfirst : insertionsAt place (Stage.requests [insertion other (element x)]) =
          if other = place then [document x] else [] := by
        rw [hrequest]
        by_cases hplace : other = place <;>
          simp [insertionsAt, Except.toOption, Request.insertion?, (hdocumented x).stored, hplace]
      rw [List.map_cons, List.map_cons, ← List.singleton_append, Stage.requests_append,
        insertionsAt_append, hfirst, ih]
      split <;> rfl

namespace Writing

/-- The calls of a writing insert its apps into the apps and its users into the
users of the database, and nothing anywhere else. -/
theorem insertionsAt_course (place : Place) (database : Text) (w : Writing) :
    insertionsAt place (Stage.requests (w.course database)) =
      (if appsOf database = place then w.apps.map App.document else []) ++
        (if usersOf database = place then w.users.map User.document else []) := by
  have happs := insertionsAt_listPart App.documented place (appsOf database)
  have husers := insertionsAt_listPart User.documented place (usersOf database)
  cases w with
  | createAppUser p => simp [course, apps, users, creation, insertionsAt, Except.toOption,
      Request.insertion?]
  | ensureIndexes table => simp [course, apps, users, insertionsAt_indexings]
  | insertApps xs => simp [course, apps, users, happs]
  | insertUsers xs => simp [course, apps, users, husers]
  | seed table p xs ys =>
      have huser : insertionsAt place (Stage.requests (userPart database p)) = [] := rfl
      simp only [course, apps, users, course_parts, Stage.requests_append, insertionsAt_append,
        huser, insertionsAt_indexings, happs, husers, List.nil_append]

theorem insertionsAt_apps (database : Text) (w : Writing) :
    insertionsAt (appsOf database) (Stage.requests (w.course database)) =
      w.apps.map App.document := by
  rw [insertionsAt_course, if_pos rfl, if_neg (appsOf_ne_usersOf database).symm, List.append_nil]

theorem insertionsAt_users (database : Text) (w : Writing) :
    insertionsAt (usersOf database) (Stage.requests (w.course database)) =
      w.users.map User.document := by
  rw [insertionsAt_course, if_neg (appsOf_ne_usersOf database), if_pos rfl, List.nil_append]

/-- The accepted calls of a writing are the first ones of its course. -/
theorem accepted_prefix (server : Server σ) (database : Text) (w : Writing) (s : σ) (c : Clock) :
    (Procedure.accepted server (w.operation.job database).run s c).map .ok <+:
      Stage.requests (w.course database) := by
  have henacted : ∀ {job : Job Unit} {xs : List Stage}, Enacts job xs () →
      (Procedure.accepted server job.run s c).map .ok <+: Stage.requests xs := by
    intro job xs hjob
    rw [show job.run = _ from hjob]
    exact accepted_enact server (fun _ _ => rfl) xs s c
  cases w with
  | createAppUser p => exact henacted (createAppUser_enacts database p)
  | ensureIndexes table => exact henacted (ensureIndexes_enacts database table)
  | insertApps xs => exact henacted (insertAll_enacts _ _).discard
  | insertUsers xs => exact henacted (insertAll_enacts _ _).discard
  | seed table p xs ys =>
      have hrun : (Operation.job database (Writing.seed table p xs ys).operation).run =
          .clock fun _ => enact (.clock fun _ => .done (.ok ()))
            (Seeding.course database table p (xs.map App.toValue) (ys.map User.toValue)) := by
        show (Seeding.seed database table p.toValue _ _).run.bind
          (ExceptT.bindCont fun _ => (pure () : Job Unit)) = _
        rw [seed_run]
        simp only [Procedure.bind, enact_bind]
        rfl
      rw [hrun]
      exact accepted_enact server (fun _ _ => rfl) _ s _

end Writing

/-! ## The log of a database -/

section

variable (server : Server σ) (place : Text → Place) (entities : Writing → List ι)

/-- The entities that a step has inserted at their place: the first ones of its
list, as many as insertions were accepted. -/
def WritingStep.inserted (w : WritingStep) (s : σ) : List ι :=
  (entities w.writing).take (w.insertions server s (place w.database)).length

/-- The entities that a history has inserted on a database, in order. -/
def log (database : Text) : List WritingStep → σ → List ι
  | [], _ => []
  | w :: rest, s =>
    (if w.database = database then w.inserted server place entities s else []) ++
      log database rest (w.step.outcome server s).state

end

/-- The apps that a history has inserted on a database, in order. -/
def insertedApps (server : Server σ) (database : Text) (history : List WritingStep) (s : σ) :
    List App :=
  log server appsOf Writing.apps database history s

/-- The users that a history has inserted on a database, in order. -/
def insertedUsers (server : Server σ) (database : Text) (history : List WritingStep) (s : σ) :
    List User :=
  log server usersOf Writing.users database history s

/-- What a writing inserts at a place are the first ones of what its calls would. -/
theorem insertions_prefix (server : Server σ) (w : WritingStep) (s : σ) (place : Place) :
    w.insertions server s place <+:
      insertionsAt place (Stage.requests (w.writing.course w.database)) := by
  rw [WritingStep.insertions, ← insertionsAt_map_ok]
  exact (Writing.accepted_prefix server w.database w.writing s w.clock).filterMap _

/-- A writing on another database inserts nothing at a place. -/
theorem insertions_elsewhere (server : Server σ) (w : WritingStep) (s : σ) {place : Place}
    (h : w.database ≠ place.database) : w.insertions server s place = [] := by
  have hprefix := insertions_prefix server w s place
  have happs : appsOf w.database ≠ place := fun heq => h (congrArg Place.database heq)
  have husers : usersOf w.database ≠ place := fun heq => h (congrArg Place.database heq)
  rw [Writing.insertionsAt_course, if_neg happs, if_neg husers] at hprefix
  exact List.prefix_nil.mp hprefix

section

variable {server : Server σ} {held : σ → Store} {place : Text → Place}
  {entities : Writing → List ι} {document : ι → Document}

/-- The documents of a step's insertions are those of the entities it inserted. -/
theorem insertions_eq_inserted
    (hwrites : ∀ database w, insertionsAt (place database) (Stage.requests
      (Writing.course database w)) = (entities w).map document) (w : WritingStep) (s : σ) :
    w.insertions server s (place w.database) =
      (w.inserted server place entities s).map document := by
  have hprefix := insertions_prefix server w s (place w.database)
  rw [hwrites] at hprefix
  rw [WritingStep.inserted, List.map_take]
  exact List.prefix_iff_eq_take.mp hprefix

/-- **The documents of a database are those of its log**, after those that were
there before. -/
theorem documents_after (truthful : Truthful server held)
    (hplace : ∀ database, (place database).database = database)
    (hwrites : ∀ database w, insertionsAt (place database) (Stage.requests
      (Writing.course database w)) = (entities w).map document) (database : Text)
    (history : List WritingStep) (s : σ) :
    ((held (after server (history.map WritingStep.step) s)).collection
        (place database)).documents =
      ((held s).collection (place database)).documents ++
        (log server place entities database history s).map document := by
  induction history generalizing s with
  | nil => simp [after, log]
  | cons w rest ih =>
      have hstep := truthful.documents_run (w.step.operation.job w.step.database).run s
        w.step.clock (place database)
      have hinserted : w.insertions server s (place database) =
          (if w.database = database then w.inserted server place entities s else []).map
            document := by
        by_cases hdatabase : w.database = database
        · rw [if_pos hdatabase, ← hdatabase]
          exact insertions_eq_inserted hwrites w s
        · rw [if_neg hdatabase]
          exact insertions_elsewhere server w s (by rw [hplace]; exact hdatabase)
      rw [List.map_cons, after, ih, log, List.map_append, ← hinserted, ← List.append_assoc]
      exact congrArg (· ++ _) hstep

/-- The identifiers of the entities that a step inserted could be written. -/
theorem fits_of_inserted (truthful : Truthful server held)
    (hwrites : ∀ database w, insertionsAt (place database) (Stage.requests
      (Writing.course database w)) = (entities w).map document) {id : ι → Int}
    (hid : ∀ x, Entries.get? "id" (document x) = some (.int (id x))) {w : WritingStep} {s : σ}
    {x : ι} (hx : x ∈ w.inserted server place entities s) : Value.fitsEightBytes (id x) := by
  have hmem : document x ∈ w.insertions server s (place w.database) := by
    rw [insertions_eq_inserted hwrites]
    exact List.mem_map_of_mem hx
  obtain ⟨q, hq, hinsertion⟩ := List.mem_filterMap.mp hmem
  have hwritten : q.obstacle? = none := truthful.written_of_accepted hq
  cases q with
  | insertOne other doc =>
      simp only [Request.insertion?] at hinsertion
      split at hinsertion
      · have hstored : Value.storedEntries doc = document x := Option.some.inj hinsertion
        have hget := (Collection.get?_storedEntries "id" doc).symm.trans (hstored ▸ hid x)
        obtain ⟨v, hv, hvalue⟩ := Option.map_eq_some_iff.mp hget
        rw [Collection.eq_int_of_stored hvalue] at hv
        exact Value.fits_of_get? hwritten hv
      · cases hinsertion
  | _ => cases hinsertion

/-- So were those of all entities of a log. -/
theorem fits_of_log (truthful : Truthful server held)
    (hwrites : ∀ database w, insertionsAt (place database) (Stage.requests
      (Writing.course database w)) = (entities w).map document) {id : ι → Int}
    (hid : ∀ x, Entries.get? "id" (document x) = some (.int (id x))) (database : Text)
    (history : List WritingStep) (s : σ) :
    ∀ x ∈ log server place entities database history s, Value.fitsEightBytes (id x) := by
  induction history generalizing s with
  | nil => exact nofun
  | cons w rest ih =>
      intro x hx
      rcases List.mem_append.mp hx with hx | hx
      · split at hx
        · exact fits_of_inserted truthful hwrites hid hx
        · cases hx
      · exact ih _ x hx

end

/-! ## Reading -/

/-- The entity of a kind that is read from the first document with an identifier. -/
def lookup (kind : Kind) (place : Place) (id : Value) : Job (Option Value) := do
  let found ← Job.request (.findOne place id)
  Job.ofExcept (readFound kind found)

theorem getApp_eq_lookup (database : Text) : getApp database = lookup .app (appsOf database) := rfl

theorem getUser_eq_lookup (database : Text) :
    getUser database = lookup .user (usersOf database) := rfl

/-- A read fails with the refusal of its call, or reads what was found. -/
theorem lookup_result (server : Server σ) (kind : Kind) (place : Place) (id : Value) (s : σ)
    (c : Clock) :
    (Job.outcome server (lookup kind place id) s c).result =
      (server.answer (.findOne place id) s).1.bind (readFound kind) := by
  show ((Procedure.call _ _).run server s c).result = _
  simp only [Procedure.run, Outcome.after]
  cases (server.answer (.findOne place id) s).1 <;> rfl

/-- In the store a read that can be written reads the first document. -/
theorem lookup_written {id : Value} (h : id.obstacle? = none) (kind : Kind) (place : Place)
    (s : Store) (c : Clock) :
    (Job.outcome Store.server (lookup kind place id) s c).result =
      readFound kind ((s.collection place).find? "id" id) := by
  have hcall : (Request.findOne place id).obstacle? = none := h
  rw [lookup_result, Store.answer_of_written hcall]
  rfl

/-- A read that cannot be written says why. -/
theorem lookup_unwritten {id : Value} {problem : Problem} (h : id.obstacle? = some problem)
    (kind : Kind) (place : Place) (s : Store) (c : Clock) :
    (Job.outcome Store.server (lookup kind place id) s c).result =
      .error (Failure.of problem) := by
  have hcall : (Request.findOne place id).obstacle? = some problem := h
  rw [lookup_result, Store.answer_of_obstacle hcall]
  rfl

/-- What the store answers to a read depends on the documents of the place alone. -/
theorem lookup_congr {s t : Store} {place : Place}
    (h : (s.collection place).documents = (t.collection place).documents) (kind : Kind)
    (id : Value) (c : Clock) :
    (Job.outcome Store.server (lookup kind place id) s c).result =
      (Job.outcome Store.server (lookup kind place id) t c).result := by
  cases hobstacle : id.obstacle? with
  | none =>
      rw [lookup_written hobstacle, lookup_written hobstacle, Collection.find?, Collection.find?, h]
  | some problem => rw [lookup_unwritten hobstacle, lookup_unwritten hobstacle]

/-- What is present is read from the identifiers of all documents. -/
theorem verify_result (database : Text) (s : Store) (c : Clock) :
    (Job.outcome Store.server (verify database) s c).result =
      (sortedIds ((s.collection (appsOf database)).project "id")).bind fun apps =>
        (sortedIds ((s.collection (usersOf database)).project "id")).map fun users =>
          ⟨apps, users⟩ := by
  have hpresent : ∀ place, Job.outcome Store.server (presentIds place) s c =
      ⟨sortedIds ((s.collection place).project "id"), [.call (.findIds place)], s, c⟩ :=
    fun _ => rfl
  have happs := hpresent (appsOf database)
  have husers := hpresent (usersOf database)
  cases hsortedApps : sortedIds ((s.collection (appsOf database)).project "id") with
  | error f =>
      rw [hsortedApps] at happs
      rw [verify, Job.outcome_bind_error _ happs]
      rfl
  | ok apps =>
      rw [hsortedApps] at happs
      rw [verify, Job.outcome_bind_ok _ happs]
      cases hsortedUsers : sortedIds ((s.collection (usersOf database)).project "id") with
      | error f =>
          rw [hsortedUsers] at husers
          rw [Job.outcome_bind_error _ husers]
          rfl
      | ok users =>
          rw [hsortedUsers] at husers
          rw [Job.outcome_bind_ok _ husers]
          rfl

/-- Where the documents are those of entities, the first entity with an
identifier is found and read as it is. -/
theorem readFound_find? {kind : Kind} {id : ι → Int} {document : ι → Document}
    {entity : ι → Value}
    (hid : ∀ x, Entries.get? "id" (document x) = some (.int (id x)))
    (hread : ∀ x, kind.read (document x) = .ok (entity x)) {c : Collection} {xs : List ι}
    (hdocuments : c.documents = xs.map document) (n : Int) :
    readFound kind (c.find? "id" (.int n)) =
      .ok ((xs.find? fun x => id x = n).map entity) := by
  have hsame : fieldIs "id" (.int n) ∘ document = fun x => decide (id x = n) := by
    funext x
    simp [fieldIs, hid]
  rw [Collection.find?, hdocuments, List.find?_map, hsame]
  cases xs.find? fun x => decide (id x = n) with
  | none => rfl
  | some x =>
      show (kind.read (document x)).map some = _
      rw [hread]
      rfl

/-- What a read under an integer identifier gives: `first`, when the server accepts the
call, and otherwise the refusal.  A server that holds a store without failing accepts
exactly what can be written, and `first` is none where it cannot. -/
structure Reads (server : Server σ) (held : σ → Store) (read : Value → Job (Option Value))
    (place : Place) (t : σ) (id : Int) (first : Option Value) : Prop where
  accepted : ∀ {found : Option Document} {u : σ},
    server.answer (.findOne place (.int id)) t = (.ok found, u) →
      ∀ clock, (Job.outcome server (read (.int id)) t clock).result = .ok first
  refused : ∀ {f : Failure} {u : σ}, server.answer (.findOne place (.int id)) t = (.error f, u) →
    ∀ clock, (Job.outcome server (read (.int id)) t clock).result = .error f
  written : Value.fitsEightBytes id = true →
    ∀ clock, (Job.outcome Store.server (read (.int id)) (held t) clock).result = .ok first
  unwritten : Value.fitsEightBytes id = false → first = none ∧
    ∀ clock, (Job.outcome Store.server (read (.int id)) (held t) clock).result =
      .error (Failure.of .integerTooLarge)

/-- Where the documents are those of entities whose identifiers can be written, a read
gives the first entity with the identifier. -/
theorem reads_first {server : Server σ} {held : σ → Store} (truthful : Truthful server held)
    {kind : Kind} {place : Place} {id : ι → Int} {document : ι → Document} {entity : ι → Value}
    (hid : ∀ x, Entries.get? "id" (document x) = some (.int (id x)))
    (hread : ∀ x, kind.read (document x) = .ok (entity x)) {t : σ} {xs : List ι}
    (hdocuments : ((held t).collection place).documents = xs.map document)
    (hfits : ∀ x ∈ xs, Value.fitsEightBytes (id x)) (n : Int) :
    Reads server held (lookup kind place) place t n
      ((xs.find? fun x => id x = n).map entity) where
  accepted := by
    intro found u hanswer clock
    have hcarried := (Store.carriedOut_of_accepted (truthful.carriedOut hanswer)).2
    have hfound : found = ((held t).collection place).find? "id" (.int n) :=
      (Except.ok.inj (congrArg Prod.fst hcarried)).symm
    rw [lookup_result, hanswer, hfound]
    exact readFound_find? hid hread hdocuments n
  refused := by
    intro f u hanswer clock
    rw [lookup_result, hanswer]
    rfl
  written := by
    intro hn clock
    rw [lookup_written (Value.obstacle?_int hn)]
    exact readFound_find? hid hread hdocuments n
  unwritten := by
    intro hn
    refine ⟨?_, fun clock => lookup_unwritten (Value.obstacle?_int_of_not_fits hn) kind place _ _⟩
    rw [Option.map_eq_none_iff, List.find?_eq_none]
    intro x hx hxn
    rw [← of_decide_eq_true hxn, hfits x hx] at hn
    cases hn

/-- A step without an insertion at a place leaves its documents. -/
theorem documents_of_no_insertions {server : Server σ} {held : σ → Store}
    (truthful : Truthful server held) {w : WritingStep} {s : σ} {place : Place}
    (h : w.insertions server s place = []) :
    ((held (w.step.outcome server s).state).collection place).documents =
      ((held s).collection place).documents := by
  have hrun := truthful.documents_run (w.step.operation.job w.step.database).run s w.step.clock
    place
  have hnone : (Procedure.accepted server (w.step.operation.job w.step.database).run s
      w.step.clock).filterMap (Request.insertion? place) = [] := h
  rw [hnone, List.append_nil] at hrun
  exact hrun

/-- A step that writes no apps inserts none. -/
theorem insertions_of_no_apps (server : Server σ) {w : WritingStep} (h : w.writing.apps = [])
    (s : σ) (database : Text) : w.insertions server s (appsOf database) = [] := by
  by_cases hdatabase : w.database = database
  · have hprefix := insertions_prefix server w s (appsOf database)
    rw [hdatabase, Writing.insertionsAt_apps, h] at hprefix
    exact List.prefix_nil.mp hprefix
  · exact insertions_elsewhere server w s hdatabase

/-- **What was written is what is read.**  Take any history of operations that
write validated entities, on a server that was empty and may refuse any call,
and let `t` be what it holds afterwards.  The app read under an identifier is the
earliest inserted app of the database that has it, field by field, and there is
none exactly when no such app was inserted, unless the read itself is refused; the
same for users.  The store refuses just the identifiers outside eight bytes, which
no inserted entity has.  Any further step leaves every stored document in its
place.  One that writes no apps changes nothing that is read of apps, and one on
another database changes nothing that is read at all. -/
theorem reads_what_was_written {server : Server σ} {held : σ → Store}
    (truthful : Truthful server held) {s : σ} (hempty : held s = Store.empty)
    (history : List WritingStep) (database : Text) :
    let t := after server (history.map WritingStep.step) s
    (∀ id : Int, Reads server held (getApp database) (appsOf database) t id
      (((insertedApps server database history s).find? fun a => a.id = id).map App.toValue)) ∧
    (∀ id : Int, Reads server held (getUser database) (usersOf database) t id
      (((insertedUsers server database history s).find? fun u => u.id = id).map User.toValue)) ∧
    ∀ w : WritingStep,
      let u := (w.step.outcome server t).state
      (∀ place, ((held t).collection place).documents <+:
        ((held u).collection place).documents) ∧
      (w.writing.apps = [] → ∀ id clock,
        (Job.outcome Store.server (getApp database id) (held u) clock).result =
          (Job.outcome Store.server (getApp database id) (held t) clock).result) ∧
      (w.database ≠ database → ∀ id clock,
        (Job.outcome Store.server (getApp database id) (held u) clock).result =
            (Job.outcome Store.server (getApp database id) (held t) clock).result ∧
          (Job.outcome Store.server (getUser database id) (held u) clock).result =
            (Job.outcome Store.server (getUser database id) (held t) clock).result ∧
          (Job.outcome Store.server (verify database) (held u) clock).result =
            (Job.outcome Store.server (verify database) (held t) clock).result) := by
  intro t
  have happs := documents_after truthful (fun _ => rfl) Writing.insertionsAt_apps database history s
  have husers := documents_after truthful (fun _ => rfl) Writing.insertionsAt_users database
    history s
  have hfitApps := fits_of_log truthful Writing.insertionsAt_apps App.get?_id_document database
    history s
  have hfitUsers := fits_of_log truthful Writing.insertionsAt_users User.get?_id_document database
    history s
  rw [hempty] at happs husers
  refine ⟨?_, ?_, ?_⟩
  · exact reads_first truthful App.get?_id_document (fun a => a.describedBy_document.read) happs
      hfitApps
  · exact reads_first truthful User.get?_id_document (fun u => u.describedBy_document.read) husers
      hfitUsers
  · intro w u
    refine ⟨?_, ?_, ?_⟩
    · intro place
      have hrun := truthful.documents_run (w.step.operation.job w.step.database).run t
        w.step.clock place
      exact ⟨_, hrun.symm⟩
    · intro hnone id clock
      rw [getApp_eq_lookup]
      exact lookup_congr (documents_of_no_insertions truthful
        (insertions_of_no_apps server hnone t database)) _ _ _
    · intro hdatabase id clock
      have happs := documents_of_no_insertions truthful
        (insertions_elsewhere server w t (show w.database ≠ (appsOf database).database from
          hdatabase))
      have husers := documents_of_no_insertions truthful
        (insertions_elsewhere server w t (show w.database ≠ (usersOf database).database from
          hdatabase))
      rw [getApp_eq_lookup, getUser_eq_lookup, verify_result, verify_result, Collection.project,
        Collection.project, Collection.project, Collection.project]
      rw [happs, husers]
      exact ⟨lookup_congr happs _ _ _, lookup_congr husers _ _ _, rfl⟩

/-- Two apps get the identifier 2 before there is an index, and the server loses
its connection at the app 7.  Afterwards the app 2 is the first of the two, with
its right, and there is no app 7.  Users on the same database change nothing
about that. -/
theorem reads_first_app_of_two :
    let server := Disturbance.server Store.server
    let s : List Disturbance × Store :=
      ([⟨.insertOne, 2, Failure.of (.troubled .reconnect "connection closed")⟩], Store.empty)
    let app : App := ⟨2, "Arnold's App", 3, [⟨"OWNER", arnold⟩]⟩
    let history : List WritingStep :=
      [⟨"appstore", .insertApps [app, ⟨2, "Second App", 1, []⟩, ⟨7, "Lost App", 1, []⟩], [0]⟩,
       ⟨"appstore", .ensureIndexes Layout.declaredIndexes, [0]⟩]
    let t := after server (history.map WritingStep.step) s
    let more : WritingStep := ⟨"appstore", .insertUsers initialUsers, [0]⟩
    (Job.outcome Store.server (getApp "appstore" (.int 2)) t.2 [0]).result =
        .ok (some app.toValue) ∧
      (Job.outcome Store.server (getApp "appstore" (.int 7)) t.2 [0]).result = .ok none ∧
      (Job.outcome Store.server (getApp "appstore" (.int 2)) (more.step.outcome server t).state.2
        [0]).result = .ok (some app.toValue) := by
  intro server s app history t more
  have htruthful : Truthful server Prod.snd := Truthful.store.disturbed
  have hempty : Prod.snd s = Store.empty := rfl
  obtain ⟨happ, -, hmore⟩ := reads_what_was_written htruthful hempty history "appstore"
  rw [show after server (history.map WritingStep.step) s = t from rfl] at happ hmore
  have hlog : insertedApps server "appstore" history s = [app, ⟨2, "Second App", 1, []⟩] := by
    decide +kernel
  have hfirst := (happ 2).written (by decide) [0]
  have hnone := (happ 7).written (by decide) [0]
  rw [hlog] at hfirst hnone
  have hstill := (hmore more).2.1 rfl (.int 2) [0]
  exact ⟨hfirst, hnone, hstill.trans hfirst⟩

/-- A read need not give the app that was inserted, nor none where none was: the server
can refuse it, and an identifier of more than eight bytes cannot be asked for. -/
theorem reads_can_be_refused :
    let lost : Failure := Failure.of (.troubled .reconnect "connection closed")
    let server := Disturbance.server Store.server
    let s : List Disturbance × Store := ([⟨.findOne, 0, lost⟩], Store.empty)
    let app : App := ⟨1, "First App", 1, []⟩
    let history : List WritingStep := [⟨"appstore", .insertApps [app], [0]⟩]
    let t := after server (history.map WritingStep.step) s
    insertedApps server "appstore" history s = [app] ∧
      (Job.outcome server (getApp "appstore" (.int 1)) t [0]).result = .error lost ∧
      (Job.outcome Store.server (getApp "appstore" (.int 9223372036854775808)) t.2 [0]).result =
        .error (Failure.of .integerTooLarge) := by
  intro lost server s app history t
  refine ⟨by decide +kernel, ?_, ?_⟩
  · rw [getApp_eq_lookup, lookup_result]
    rfl
  · rw [getApp_eq_lookup]
    exact lookup_unwritten (Value.obstacle?_int_of_not_fits (by decide)) _ _ _ _

end InitialLoad.Seeding
