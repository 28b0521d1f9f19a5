import InitialLoad.Proofs.Fallible
import InitialLoad.Proofs.FailFast
import InitialLoad.Proofs.Histories
import InitialLoad.Proofs.Stores
import InitialLoad.Seeding.InitialData

/-!
# No second seed

A complete seed leaves both declared indexes in force and the identifiers of its
entities present: the database is `Seeded`.  No operation on validated entities
can change that, so the same apps and users can never be seeded again, for any
principal.  The second seed ends at the database user if that exists; else the
indexes are there already, and the very first entity is refused.  A principal
that cannot be written is refused before either.
-/

namespace InitialLoad

/-- The record of a validated entity. -/
inductive Value.Validated : Value → Prop
  | user (u : User) : Validated u.toValue
  | snapshot (u : User) : Validated u.toSnapshot
  | right (r : Right) : Validated r.toValue
  | app (a : App) : Validated a.toValue
  | roleGrant (g : RoleGrant) : Validated g.toValue
  | databaseUser (p : DatabaseUser) : Validated p.toValue

/-- The document of a validated entity has an integer identifier. -/
theorem Value.Validated.integerIdentified {v : Value} {doc : Document} (hv : v.Validated)
    (hdoc : v.toDocument = .ok doc) : IntegerIdentified doc := by
  cases hv with
  | user u =>
      rw [u.toDocument_toValue] at hdoc
      cases hdoc
      exact Or.inr ⟨u.id, u.get?_id_document⟩
  | snapshot u =>
      rw [u.toDocument_toSnapshot] at hdoc
      cases hdoc
      exact Or.inr ⟨u.id, u.get?_id_document⟩
  | app a =>
      rw [a.toDocument_toValue] at hdoc
      cases hdoc
      exact Or.inr ⟨a.id, a.get?_id_document⟩
  | right r => cases hdoc
  | roleGrant g => cases hdoc
  | databaseUser p => cases hdoc

namespace Seeding

/-- The operation inserts validated entities only. -/
def Operation.Validated (operation : Operation) : Prop :=
  ∀ element ∈ operation.elements, element.Validated

theorem Operation.Validated.orderly {operation : Operation} (h : operation.Validated)
    (database : Text) : Job.Sends Request.Orderly (operation.job database) := by
  refine operation.sends database ?_ ?_
  · intro q hq
    cases q with
    | insertOne place doc => exact absurd rfl (hq place doc)
    | _ => trivial
  · intro element helement place doc hdoc
    exact (h element helement).integerIdentified hdoc

/-! ## What a complete seed leaves -/

/-- Both declared indexes are in force, and the identifiers of the apps and of
the users are present. -/
structure Seeded (database : Text) (apps : List App) (users : List User) (s : Store) : Prop where
  guardedApps : (s.collection (appsOf database)).Guarded
  guardedUsers : (s.collection (usersOf database)).Guarded
  presentApps : ∀ a ∈ apps, some a.id ∈ (s.collection (appsOf database)).identifiers
  presentUsers : ∀ u ∈ users, some u.id ∈ (s.collection (usersOf database)).identifiers

/-- A seeded database stays seeded, whatever validated entities are inserted. -/
theorem Seeded.answer {database : Text} {apps : List App} {users : List User} {q : Request}
    {s : Store} (hq : q.Orderly) (h : Seeded database apps users s) :
    Seeded database apps users (Store.answer q s).2 where
  guardedApps := Store.guarded_answer hq h.guardedApps
  guardedUsers := Store.guarded_answer hq h.guardedUsers
  presentApps := fun a ha => Store.identifiers_answer q (h.presentApps a ha)
  presentUsers := fun u hu => Store.identifiers_answer q (h.presentUsers u hu)

/-- An index that was created is what the collection now has. -/
theorem createIndex_of_indexing {place : Place} {s t : Store}
    (h : Completes Store.server [indexing place Layout.uniqueId] s t) :
    (s.collection place).createIndex Index.uniqueId = .ok (t.collection place) := by
  rw [indexing_uniqueId] at h
  obtain ⟨_, hanswer⟩ := completes_attempt_iff.mp h
  exact createIndex_of_answer hanswer

/-- A document that was inserted could be written, and is in the collection. -/
theorem insert_of_insertion {place : Place} {element : Value} {doc : Document} {s t : Store}
    (hdoc : element.toDocument = .ok doc)
    (h : Completes Store.server [insertion place element] s t) :
    Value.obstacleInEntries? doc = none ∧
      (s.collection place).insert doc = .ok (t.collection place) := by
  rw [insertion_of_document hdoc] at h
  obtain ⟨_, hanswer⟩ := completes_attempt_iff.mp h
  exact ⟨(Store.carriedOut_of_accepted hanswer).1, insert_of_answer hanswer⟩

/-! ## Orderly calls -/

theorem orderly_userPart {database : Text} {p : DatabaseUser} {q : Request}
    (hq : .ok q ∈ Stage.requests (userPart database p)) : q.Orderly := by
  simp only [userPart, creation, Stage.requests_cons_record, Stage.requests_cons_attempt,
    Stage.requests_nil, List.mem_singleton, Except.ok.injEq] at hq
  rw [hq]
  trivial

theorem orderly_indexing {place : Place} {q : Request}
    (hq : .ok q ∈ Stage.requests [indexing place Layout.uniqueId]) : q.Orderly := by
  simp only [indexing_uniqueId, Stage.requests_cons_attempt, Stage.requests_nil,
    List.mem_singleton, Except.ok.injEq] at hq
  rw [hq]
  trivial

/-- Every call of a list of validated entities is orderly. -/
theorem orderly_listPart {place : Place} {elements : List Value}
    (helements : ∀ element ∈ elements, element.Validated) {q : Request}
    (hq : .ok q ∈ Stage.requests (listPart place elements)) : q.Orderly := by
  have hrequests : Stage.requests (elements.map (insertion place)) =
      elements.map (insertCall place) := Stage.requests_attempts _ _ elements
  simp only [listPart, Stage.requests_append, hrequests, Stage.requests_cons_record,
    Stage.requests_nil, List.append_nil, List.mem_map] at hq
  obtain ⟨element, helement, hcall⟩ := hq
  unfold insertCall at hcall
  cases hdoc : element.toDocument with
  | error f =>
      rw [hdoc] at hcall
      cases hcall
  | ok doc =>
      rw [hdoc] at hcall
      cases hcall
      exact (helements element helement).integerIdentified hdoc

/-- Elements that were inserted can be stored, and their identifiers are present. -/
theorem stored_of_listPart {ι : Type} {element : ι → Value} {id : ι → Int}
    {document : ι → Document} {place : Place} {xs : List ι} {s t : Store}
    (hdocumented : ∀ x, Documented (element x) (id x) (document x))
    (h : Completes Store.server (listPart place (xs.map element)) s t) :
    ∀ x ∈ xs, StoredAs (element x) (id x) (document x) ∧
      some (id x) ∈ (t.collection place).identifiers := by
  rw [listPart, completes_append_iff] at h
  obtain ⟨_, hlist, -, rfl⟩ := h
  induction xs generalizing s with
  | nil =>
      intro x hx
      cases hx
  | cons y rest ih =>
      rw [List.map_cons, List.map_cons, ← List.singleton_append, completes_append_iff] at hlist
      obtain ⟨next, hfirst, hrest⟩ := hlist
      intro x hx
      rcases List.mem_cons.mp hx with rfl | hx
      · have hx := hdocumented x
        obtain ⟨hobstacle, hinsert⟩ := insert_of_insertion hx.toDocument hfirst
        have hadded := (Collection.insert_ok hinsert).2
        have hpresent : some (id x) ∈ (next.collection place).identifiers := by
          rw [hadded, hx.stored, Collection.identifiers_adding]
          exact List.mem_append_right _ (by simp [identifier_of_get? hx.identified])
        have hkept := hrest.preserves
          (fun s => some (id x) ∈ (s.collection place).identifiers)
          (fun q _ s hs => Store.identifiers_answer q hs) hpresent
        exact ⟨⟨hx, hobstacle⟩, hkept⟩
      · exact ih hrest x hx

section

variable {database : Text} {p : DatabaseUser} {apps : List App} {users : List User} {s t : Store}

/-- The indexes of a seed come into force over documents with integer identifiers. -/
theorem seeded_of_indexings (happs : (s.collection (appsOf database)).IntegerIds)
    (husers : (s.collection (usersOf database)).IntegerIds)
    (h : Completes Store.server (indexings database Layout.declaredIndexes) s t) :
    Seeded database [] [] t := by
  have hboth : Completes Store.server ([indexing (appsOf database) Layout.uniqueId] ++
      [indexing (usersOf database) Layout.uniqueId]) s t := h
  obtain ⟨next, hfirst, hsecond⟩ := completes_append_iff.mp hboth
  have hguarded : (next.collection (appsOf database)).Guarded :=
    .of_createIndex happs (createIndex_of_indexing hfirst)
  have hids := hfirst.preserves
    (fun s => (s.collection (usersOf database)).IntegerIds)
    (fun q hq s hs => Store.integerIds_answer (orderly_indexing hq) hs) husers
  have hstill := hsecond.preserves
    (fun s => (s.collection (appsOf database)).Guarded)
    (fun q hq s hs => Store.guarded_answer (orderly_indexing hq) hs) hguarded
  refine ⟨hstill, .of_createIndex hids (createIndex_of_indexing hsecond), ?_, ?_⟩
  · intro a ha
    cases ha
  · intro u hu
    cases hu

/-- **A complete seed leaves the database seeded**, and its entities can be stored. -/
theorem seeded_of_completes (happs : (s.collection (appsOf database)).IntegerIds)
    (husers : (s.collection (usersOf database)).IntegerIds)
    (h : Completes Store.server (course database Layout.declaredIndexes p
      (apps.map App.toValue) (users.map User.toValue)) s t) :
    Seeded database apps users t ∧
      (∀ a ∈ apps, StoredAs a.toValue a.id a.document) ∧
      ∀ u ∈ users, StoredAs u.toValue u.id u.document := by
  rw [course_parts, completes_append_iff] at h
  obtain ⟨third, h, husersPart⟩ := h
  rw [completes_append_iff] at h
  obtain ⟨second, h, happsPart⟩ := h
  rw [completes_append_iff] at h
  obtain ⟨first, huserPart, hindexings⟩ := h
  have hfirst : (first.collection (appsOf database)).IntegerIds ∧
      (first.collection (usersOf database)).IntegerIds := by
    refine huserPart.preserves (fun s => (s.collection (appsOf database)).IntegerIds ∧
      (s.collection (usersOf database)).IntegerIds) ?_ ⟨happs, husers⟩
    intro q hq s hs
    have horderly := orderly_userPart hq
    exact ⟨Store.integerIds_answer horderly hs.1, Store.integerIds_answer horderly hs.2⟩
  have hsecond : Seeded database [] [] second := seeded_of_indexings hfirst.1 hfirst.2 hindexings
  have hvalidApps : ∀ element ∈ apps.map App.toValue, element.Validated :=
    List.forall_mem_map.mpr fun a _ => .app a
  have hvalidUsers : ∀ element ∈ users.map User.toValue, element.Validated :=
    List.forall_mem_map.mpr fun u _ => .user u
  have hthird : Seeded database [] [] third := happsPart.preserves _
    (fun q hq s hs => hs.answer (orderly_listPart hvalidApps hq)) hsecond
  have happsStored := stored_of_listPart App.documented happsPart
  have hthird' : Seeded database apps [] third :=
    { hthird with presentApps := fun a ha => (happsStored a ha).2 }
  have hlast : Seeded database apps [] t := husersPart.preserves _
    (fun q hq s hs => hs.answer (orderly_listPart hvalidUsers hq)) hthird'
  have husersStored := stored_of_listPart User.documented husersPart
  exact ⟨{ hlast with presentUsers := fun u hu => (husersStored u hu).2 },
    fun a ha => (happsStored a ha).1, fun u hu => (husersStored u hu).1⟩

/-! ## The second seed -/

/-- The collection and the identifier of the entity that a seed inserts first. -/
def firstEntity? (apps : List App) (users : List User) : Option (Text × Int) :=
  (apps.map (fun a => (Layout.apps, a.id)) ++ users.map fun u => (Layout.users, u.id)).head?

theorem exists_firstEntity {apps : List App} {users : List User}
    (h : apps ≠ [] ∨ users ≠ []) : ∃ kind id, firstEntity? apps users = some (kind, id) := by
  cases apps with
  | cons a rest => exact ⟨Layout.apps, a.id, rfl⟩
  | nil =>
      cases users with
      | cons u rest => exact ⟨Layout.users, u.id, rfl⟩
      | nil => simp at h

/-- A list is refused at its first element when the identifier of that is present. -/
theorem listPart_refused {place : Place} {element : Value} {id : Int} {doc : Document}
    (hstored : StoredAs element id doc) (hguarded : (s.collection place).Guarded)
    (hpresent : some id ∈ (s.collection place).identifiers) (rest : List Value) :
    ∃ cause, Stops Store.server (listPart place (element :: rest)) s
      (Failure.because (.duplicateEntity (.text place.collection) (.int id)) cause) s := by
  obtain ⟨index, -, -, hstops⟩ :=
    insertion_refused hstored hguarded.mem hguarded.integerIds hpresent
  exact ⟨_, hstops.append _⟩

/-- In a seeded database the indexes of a seed are there already. -/
theorem indexings_again (h : Seeded database apps users s) :
    Completes Store.server (indexings database Layout.declaredIndexes) s s := by
  have hfirst := indexing_completes h.guardedApps.createIndex_eq
  have hsecond := indexing_completes h.guardedUsers.createIndex_eq
  rw [Store.setCollection_collection] at hfirst hsecond
  exact hfirst.append hsecond

/-- In a seeded database a seed for a new principal ends at its first entity. -/
theorem seeded_stops (h : Seeded database apps users s)
    (happs : ∀ a ∈ apps, StoredAs a.toValue a.id a.document)
    (husers : ∀ u ∈ users, StoredAs u.toValue u.id u.document) (huser : s.AdmitsUser database p)
    {kind : Text} {id : Int}
    (hfirst : firstEntity? apps users = some (kind, id)) :
    ∃ cause, Stops Store.server (course database Layout.declaredIndexes p
        (apps.map App.toValue) (users.map User.toValue)) s
      (Failure.because (.duplicateEntity (.text kind) (.int id)) cause)
      (s.withAccount database p) := by
  have hseeded : Seeded database apps users (s.withAccount database p) :=
    ⟨h.guardedApps, h.guardedUsers, h.presentApps, h.presentUsers⟩
  have hindexes := (userPart_completes huser).append (indexings_again hseeded)
  rw [course_parts]
  cases apps with
  | cons a rest =>
      obtain ⟨rfl, rfl⟩ : Layout.apps = kind ∧ a.id = id := by
        simpa [firstEntity?] using hfirst
      obtain ⟨cause, hstops⟩ := listPart_refused (happs a List.mem_cons_self)
        hseeded.guardedApps (hseeded.presentApps a List.mem_cons_self) (rest.map App.toValue)
      exact ⟨cause, (hindexes.append_stops hstops).append _⟩
  | nil =>
      cases users with
      | nil => cases hfirst
      | cons u rest =>
          obtain ⟨rfl, rfl⟩ : Layout.users = kind ∧ u.id = id := by
            simpa [firstEntity?] using hfirst
          obtain ⟨cause, hstops⟩ := listPart_refused (husers u List.mem_cons_self)
            hseeded.guardedUsers (hseeded.presentUsers u List.mem_cons_self)
            (rest.map User.toValue)
          have hnoApps : Completes Store.server (listPart (appsOf database) [])
              (s.withAccount database p) (s.withAccount database p) := Completes.record _ _
          exact ⟨cause, (hindexes.append hnoApps).append_stops hstops⟩

end

/-- **No second seed.**  Let a seed of apps and users, at least one of them,
succeed over documents with integer identifiers or none, on a server that may
fail at any call, and let any operations on validated entities follow.  Then a
seed of the same apps and users reports a duplicate entity, whoever its
principal is: the database user, if that exists, or else its first entity.  The
documents, their order and the indexes stay as they were, and at most the
database user is added.  Only a principal that cannot be written is reported as
that, and then nothing at all is added. -/
theorem no_second_seed {σ : Type} {server : Server σ} {held : σ → Store}
    (fallible : Fallible server held) {database : Text} {p : DatabaseUser} {apps : List App}
    {users : List User} (hentities : apps ≠ [] ∨ users ≠ []) {s : σ}
    (happs : ((held s).collection (appsOf database)).IntegerIds)
    (husers : ((held s).collection (usersOf database)).IntegerIds) {clock : Clock}
    (hseed : ∃ report, (Job.outcome server (seed database Layout.declaredIndexes p.toValue
      (apps.map App.toValue) (users.map User.toValue)) s clock).result = .ok report)
    {between : List Step} (hbetween : ∀ step ∈ between, step.operation.Validated)
    (other : DatabaseUser) (later : Clock) :
    let t := held (after server between (Job.outcome server (seed database
      Layout.declaredIndexes p.toValue (apps.map App.toValue) (users.map User.toValue)) s
      clock).state)
    let o := Job.outcome Store.server (seed database Layout.declaredIndexes other.toValue
      (apps.map App.toValue) (users.map User.toValue)) t later
    o.state.collection = t.collection ∧
      (other.Encodable →
        t.hasUser database (.text other.user) = true ∧
          o.result = .error (userTaken database other) ∧ o.state = t ∨
        t.hasUser database (.text other.user) = false ∧
          (∃ kind id cause, firstEntity? apps users = some (kind, id) ∧
            o.result =
              .error (Failure.because (.duplicateEntity (.text kind) (.int id)) cause)) ∧
          o.state = t.withAccount database other) ∧
      ∀ problem, other.obstacle? = some problem →
        o.result = .error (Failure.of problem) ∧ o.state = t := by
  intro t o
  obtain ⟨report, hreport⟩ := hseed
  obtain ⟨hseeded, hstoredApps, hstoredUsers⟩ :=
    seeded_of_completes happs husers (fallible.completes (completes_of_seed hreport))
  have hstill : Seeded database apps users t := after_preserves
    (fun s => Seeded database apps users (held s))
    (fallible.preserves fun q s hq hs => hs.answer hq)
    (fun step hstep => (hbetween step hstep).orderly step.database) hseeded
  rcases unwritten_or_present_or_admitted database other t with
    ⟨problem, hobstacle⟩ | ⟨hencodable, huser⟩ | huser
  · have hnot : ¬ other.Encodable := by
      rw [← other.obstacle?_eq_none_iff, hobstacle]
      exact nofun
    obtain ⟨hresult, hstate⟩ :=
      seed_stops (course_stops_at_user (creation_unwritten _ hobstacle t)) later
    refine ⟨congrArg Store.collection hstate, fun h => absurd h hnot, ?_⟩
    intro _ hproblem
    cases hobstacle.symm.trans hproblem
    exact ⟨hresult, hstate⟩
  · have hwritten := other.obstacle?_eq_none_iff.mpr hencodable
    obtain ⟨hresult, hstate⟩ :=
      seed_stops (course_stops_at_user (creation_stops hencodable huser)) later
    refine ⟨congrArg Store.collection hstate, fun _ => Or.inl ⟨huser, hresult, hstate⟩, ?_⟩
    intro _ hproblem
    cases hwritten.symm.trans hproblem
  · have hwritten := other.obstacle?_eq_none_iff.mpr huser.encodable
    obtain ⟨kind, id, hfirst⟩ := exists_firstEntity hentities
    obtain ⟨cause, hstops⟩ := seeded_stops hstill hstoredApps hstoredUsers huser hfirst
    obtain ⟨hresult, hstate⟩ := seed_stops hstops later
    have hcollection : o.state.collection = t.collection := by
      rw [show o.state = t.withAccount database other from hstate, Store.withAccount_collection]
    refine ⟨hcollection, ?_, ?_⟩
    · intro _
      exact Or.inr ⟨huser.new, ⟨kind, id, cause, hfirst, hresult⟩, hstate⟩
    · intro _ hproblem
      cases hwritten.symm.trans hproblem

/-- The initial data are seeded on a server that loses its connection at the
eighth insertion.  An app is lost to this, and a user is added afterwards.  A
seed of the initial data for another principal ends at the app 2. -/
theorem initialData_not_seeded_again :
    let server := Disturbance.server Store.server
    let s : List Disturbance × Store :=
      ([⟨.insertOne, 7, Failure.of (.troubled .reconnect "connection closed")⟩], Store.empty)
    let p : DatabaseUser := ⟨"loader", "secret", [⟨"readWrite", "appstore"⟩]⟩
    let other : DatabaseUser := ⟨"reloader", "secret", [⟨"readWrite", "appstore"⟩]⟩
    let between : List Step :=
      [⟨"appstore", .insertApps [App.toValue ⟨4, "Lost App", 1, []⟩], [0]⟩,
       ⟨"appstore", .insertUsers [User.toValue ⟨5, "Maria", none, "Kevin"⟩], [0]⟩]
    let t := (after server between (Job.outcome server (seed "appstore"
      Layout.declaredIndexes p.toValue (initialApps.map App.toValue)
      (initialUsers.map User.toValue)) s [0]).state).2
    let o := Job.outcome Store.server (seed "appstore" Layout.declaredIndexes other.toValue
      (initialApps.map App.toValue) (initialUsers.map User.toValue)) t [0]
    (∃ cause, o.result =
        .error (Failure.because (.duplicateEntity (.text "apps") (.int 2)) cause)) ∧
      o.state = t.withAccount "appstore" other := by
  intro server s p other between t o
  have hempty : Collection.empty.IntegerIds := .of_no_documents rfl
  have hvalidated : ∀ step ∈ between, step.operation.Validated := by
    intro step hstep
    simp only [between, List.mem_cons, List.not_mem_nil, or_false] at hstep
    rcases hstep with rfl | rfl <;> intro element helement <;> rw [List.mem_singleton.mp helement]
    · exact .app _
    · exact .user _
  have hseed : ∃ report, (Job.outcome server (seed "appstore" Layout.declaredIndexes p.toValue
      (initialApps.map App.toValue) (initialUsers.map User.toValue)) s [0]).result =
        .ok report := by
    have hok : (Job.outcome server (seed "appstore" Layout.declaredIndexes p.toValue
        (initialApps.map App.toValue) (initialUsers.map User.toValue)) s [0]).result.toBool =
          true := by decide +kernel
    revert hok
    cases (Job.outcome server (seed "appstore" Layout.declaredIndexes p.toValue
      (initialApps.map App.toValue) (initialUsers.map User.toValue)) s [0]).result with
    | error f => exact fun h => by cases h
    | ok report => exact fun _ => ⟨report, rfl⟩
  have hentities : initialApps ≠ [] ∨ initialUsers ≠ [] := Or.inl (by decide)
  obtain ⟨-, hend, -⟩ := no_second_seed (s := s) Fallible.store.disturbed hentities hempty hempty
    hseed hvalidated other [0]
  have hencodable : other.Encodable := ⟨by decide, by decide, by
    intro g hg
    cases List.mem_singleton.mp hg
    exact ⟨by decide, by decide⟩⟩
  rcases hend hencodable with ⟨huser, -, -⟩ | ⟨-, ⟨kind, id, cause, hfirst, hresult⟩, hstate⟩
  · have hnew : t.hasUser "appstore" (.text "reloader") = false := by decide +kernel
    exact absurd (huser.symm.trans hnew) (by decide)
  · obtain ⟨rfl, rfl⟩ : Layout.apps = kind ∧ 2 = id := by
      simpa [firstEntity?, initialApps] using hfirst
    exact ⟨⟨cause, hresult⟩, hstate⟩

end Seeding

end InitialLoad
