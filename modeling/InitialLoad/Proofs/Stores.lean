import InitialLoad.Proofs.Encoding
import InitialLoad.Proofs.Identifiers

/-!
# Courses against the store

What the stages of a seed do to the store, one phase after the other: the
database user, the declared indexes, and the insertion of a list of entities.
Each phase has a lemma for every way in which it can end, in the form that
composes along a course.  Of an entity all that is needed is `Documented`, and
`StoredAs` where it has to be inserted.
-/

namespace InitialLoad

namespace Store

/-- The store with one more database user. -/
def withAccount (database : Text) (p : DatabaseUser) (s : Store) : Store :=
  { s with accounts := s.accounts ++ [⟨database, .text p.user, .text p.pwd, p.grants⟩] }

@[simp] theorem withAccount_collection (database : Text) (p : DatabaseUser) (s : Store) :
    (s.withAccount database p).collection = s.collection := rfl

@[simp] theorem collection_setCollection_self (place : Place) (c : Collection) (s : Store) :
    (s.setCollection place c).collection place = c := by
  simp [setCollection]

theorem collection_setCollection_of_ne {place other : Place} (h : other ≠ place)
    (c : Collection) (s : Store) :
    (s.setCollection place c).collection other = s.collection other := by
  simp [setCollection, h]

theorem setCollection_collection (place : Place) (s : Store) :
    s.setCollection place (s.collection place) = s := by
  rcases s with ⟨accounts, collection⟩
  simp only [setCollection, Store.mk.injEq, true_and]
  funext p
  split <;> simp_all

/-- The database user can be created: it can be written, and its name is new. -/
structure AdmitsUser (database : Text) (p : DatabaseUser) (s : Store) : Prop where
  encodable : p.Encodable
  new : s.hasUser database (.text p.user) = false

theorem setCollection_setCollection (place : Place) (c d : Collection) (s : Store) :
    (s.setCollection place c).setCollection place d = s.setCollection place d := by
  simp only [setCollection, Store.mk.injEq, true_and]
  funext p
  split <;> rfl

theorem setCollection_comm {place other : Place} (h : place ≠ other) (c d : Collection)
    (s : Store) :
    (s.setCollection place c).setCollection other d =
      (s.setCollection other d).setCollection place c := by
  simp only [setCollection, Store.mk.injEq, true_and]
  funext p
  by_cases hp : p = other
  · subst hp
    simp [h.symm]
  · simp [hp]

/-- What an accepted creation of an index does to the store. -/
theorem createIndex_of_accepted {place : Place} {keys : Value} {options : Document}
    {s t : Store} {a : Unit}
    (h : server.answer (.createIndex place keys options) s = (.ok a, t)) :
    ∃ index c, Index.described? keys options = some index ∧
      (s.collection place).createIndex index = .ok c ∧ t = s.setCollection place c := by
  obtain ⟨c, hcreate, ht⟩ := settle_updateCollection_ok_iff.mp (carriedOut_of_accepted h).2
  obtain ⟨index, hindex, hc⟩ := Collection.createDescribed_ok.mp hcreate
  exact ⟨index, c, hindex, hc, ht⟩

end Store

namespace Seeding

theorem appsOf_ne_usersOf (database : Text) : appsOf database ≠ usersOf database := by
  intro h
  exact absurd (congrArg Place.collection h) (show Layout.apps ≠ Layout.users by decide)

theorem users_setApps (database : Text) (c : Collection) (s : Store) :
    (s.setCollection (appsOf database) c).collection (usersOf database) =
      s.collection (usersOf database) :=
  Store.collection_setCollection_of_ne (appsOf_ne_usersOf database).symm _ _

/-! ## The database user -/

/-- What is reported of a database user that exists. -/
def userTaken (database : Text) (p : DatabaseUser) : Failure :=
  Failure.because (.duplicateEntity (.text "user") (.text p.user))
    (Store.userExists database (.text p.user))

/-- A principal that cannot be written never gets to the store. -/
theorem creation_unwritten (database : Text) {p : DatabaseUser} {problem : Problem}
    (h : p.obstacle? = some problem) (s : Store) :
    Stops Store.server [creation database p] s (Failure.of problem) s := by
  have hobstacle := (DatabaseUser.obstacle?_createUser database p).trans h
  have hcode : problem.isRefusalWith Store.userExistsCode = false :=
    (Request.obstructs hobstacle).not_refusal _
  have hreport : whenUserRefused (.text p.user) (Failure.of problem) = Failure.of problem := by
    simp [whenUserRefused, Failure.of, hcode]
  have hstops := stops_attempt (Store.answer_of_obstacle hobstacle s)
    (whenUserRefused (.text p.user))
  rw [hreport] at hstops
  exact hstops

theorem creation_stops {database : Text} {p : DatabaseUser} {s : Store}
    (hencodable : p.Encodable) (h : s.hasUser database (.text p.user) = true) :
    Stops Store.server [creation database p] s (userTaken database p) s := by
  have hwritten := p.obstacle?_eq_none_iff.mpr hencodable
  have hanswer : Store.server.answer
      (.createUser database (.text p.user) (.text p.pwd) p.grants) s =
        (.error (Store.userExists database (.text p.user)), s) := by
    rw [Store.answer_of_written ((DatabaseUser.obstacle?_createUser database p).trans hwritten)]
    simp [Store.carryOut, Store.createUser, h, Store.settle]
  exact stops_attempt hanswer _

theorem creation_completes {database : Text} {p : DatabaseUser} {s : Store}
    (h : s.AdmitsUser database p) :
    Completes Store.server [creation database p] s (s.withAccount database p) := by
  have hwritten := p.obstacle?_eq_none_iff.mpr h.encodable
  have hanswer : Store.server.answer
      (.createUser database (.text p.user) (.text p.pwd) p.grants) s =
        (.ok (), s.withAccount database p) := by
    rw [Store.answer_of_written ((DatabaseUser.obstacle?_createUser database p).trans hwritten)]
    simp [Store.carryOut, Store.createUser, h.new, Store.settle, Store.withAccount]
  exact completes_attempt_iff.mpr ⟨(), hanswer⟩

/-- A database user cannot be written, or is there, or can be created. -/
theorem unwritten_or_present_or_admitted (database : Text) (p : DatabaseUser) (s : Store) :
    (∃ problem, p.obstacle? = some problem) ∨
      (p.Encodable ∧ s.hasUser database (.text p.user) = true) ∨ s.AdmitsUser database p := by
  cases hobstacle : p.obstacle? with
  | some problem => exact Or.inl ⟨problem, rfl⟩
  | none =>
      have hencodable := p.obstacle?_eq_none_iff.mp hobstacle
      cases huser : s.hasUser database (.text p.user) with
      | true => exact Or.inr (Or.inl ⟨hencodable, rfl⟩)
      | false => exact Or.inr (Or.inr ⟨hencodable, huser⟩)

/-- A seed whose database user cannot be created goes no further. -/
theorem course_stops_at_user {database : Text} {table : IndexTable} {p : DatabaseUser}
    {apps users : List Value} {s : Store} {f : Failure}
    (h : Stops Store.server [creation database p] s f s) :
    Stops Store.server (course database table p apps users) s f s :=
  (Completes.record _ s).append_stops (h.append _)

/-- What a seed does before its first index. -/
theorem userPart_completes {database : Text} {p : DatabaseUser} {s : Store}
    (huser : s.AdmitsUser database p) :
    Completes Store.server (userPart database p) s (s.withAccount database p) :=
  (Completes.record _ s).append ((creation_completes huser).append (Completes.record _ _))

/-! ## The declared indexes -/

/-- The creation of the declared index can be written. -/
theorem obstacle?_declared (place : Place) :
    (Request.createIndex place Layout.idKeys [("unique", .bool true)]).obstacle? = none := rfl

theorem createDescribed_declared :
    Collection.createDescribed Layout.idKeys [("unique", .bool true)] =
      fun c => c.createIndex Index.uniqueId := by
  funext c
  rw [Collection.createDescribed, Index.described?_declared]

theorem answer_createIndex (place : Place) (s : Store) :
    Store.server.answer (.createIndex place Layout.idKeys [("unique", .bool true)]) s =
      s.settle (s.updateCollection place fun c => c.createIndex Index.uniqueId) := by
  rw [Store.answer_of_written (obstacle?_declared place), Store.carryOut,
    createDescribed_declared]

/-- The declared index was created if the call was accepted. -/
theorem createIndex_of_answer {place : Place} {s t : Store} {a : Unit}
    (h : Store.server.answer (.createIndex place Layout.idKeys [("unique", .bool true)]) s =
      (.ok a, t)) :
    (s.collection place).createIndex Index.uniqueId = .ok (t.collection place) := by
  obtain ⟨index, c, hindex, hcreate, rfl⟩ := Store.createIndex_of_accepted h
  cases Index.described?_declared.symm.trans hindex
  rw [hcreate, Store.collection_setCollection_self]

theorem createIndex_of_refusal {place : Place} {s t : Store} {f : Failure}
    (h : Store.server.answer (.createIndex place Layout.idKeys [("unique", .bool true)]) s =
      (.error f, t)) :
    (s.collection place).createIndex Index.uniqueId = .error f := by
  have hsettled := (answer_createIndex place s).symm.trans h
  exact (Store.settle_updateCollection_error_iff.mp hsettled).1

theorem indexing_stops {place : Place} {s : Store} {f : Failure}
    (h : (s.collection place).createIndex Index.uniqueId = .error f) :
    Stops Store.server [indexing place Layout.uniqueId] s f s := by
  have hanswer := (answer_createIndex place s).trans
    (Store.settle_updateCollection_error_iff.mpr ⟨h, rfl⟩)
  exact stops_attempt hanswer id

theorem indexing_completes {place : Place} {s : Store} {c : Collection}
    (h : (s.collection place).createIndex Index.uniqueId = .ok c) :
    Completes Store.server [indexing place Layout.uniqueId] s (s.setCollection place c) := by
  have hanswer := (answer_createIndex place s).trans
    (Store.settle_updateCollection_ok_iff.mpr ⟨c, h, rfl⟩)
  exact completes_attempt_iff.mpr ⟨(), hanswer⟩

/-! ## Lists of entities -/

/-- The element with this identifier is inserted as this document, which the
store leaves as it is. -/
structure Documented (element : Value) (id : Int) (doc : Document) : Prop where
  toDocument : element.toDocument = .ok doc
  stored : Value.storedEntries doc = doc
  member : element.member "id" = .ok (.int id)
  identified : Entries.get? "id" doc = some (.int id)

/-- Moreover the document can be stored. -/
structure StoredAs (element : Value) (id : Int) (doc : Document) : Prop
    extends Documented element id doc where
  obstacle : Value.obstacleInEntries? doc = none

theorem StoredAs.obstacle_call {element : Value} {id : Int} {doc : Document}
    (h : StoredAs element id doc) (place : Place) :
    (Request.insertOne place doc).obstacle? = none := h.obstacle

theorem Documented.integerIdentified {element : Value} {id : Int} {doc : Document}
    (h : Documented element id doc) : IntegerIdentified doc := Or.inr ⟨id, h.identified⟩

theorem App.documented (a : App) : Documented a.toValue a.id a.document :=
  ⟨a.toDocument_toValue, a.storedEntries_document, rfl, a.get?_id_document⟩

theorem User.documented (u : User) : Documented u.toValue u.id u.document :=
  ⟨u.toDocument_toValue, u.storedEntries_document, rfl, u.get?_id_document⟩

theorem App.storedAs {a : App} (h : a.Encodable) : StoredAs a.toValue a.id a.document :=
  ⟨App.documented a, App.obstacle_document h⟩

theorem User.storedAs {u : User} (h : u.Encodable) : StoredAs u.toValue u.id u.document :=
  ⟨User.documented u, User.obstacle_document h⟩

/-- What is reported of an element whose identifier is taken; the cause is what
the declared index says of the document. -/
def identifierTaken (place : Place) (id : Int) (doc : Document) : Failure :=
  Failure.because (.duplicateEntity (.text place.collection) (.int id))
    (Failure.of (Collection.repeatedKey Index.uniqueId doc))

/-- The document was inserted if the call was accepted. -/
theorem insert_of_answer {place : Place} {doc : Document} {s t : Store} {a : Unit}
    (h : Store.server.answer (.insertOne place doc) s = (.ok a, t)) :
    (s.collection place).insert doc = .ok (t.collection place) := by
  obtain ⟨c, hinsert, rfl⟩ := Store.insert_of_accepted h
  rw [hinsert, Store.collection_setCollection_self]

/-- A document that can be written and is refused is refused by the collection. -/
theorem insert_of_refusal {place : Place} {doc : Document} {s t : Store} {f : Failure}
    (hwritten : Value.obstacleInEntries? doc = none)
    (h : Store.server.answer (.insertOne place doc) s = (.error f, t)) :
    (s.collection place).insert doc = .error f := by
  have hcall : (Request.insertOne place doc).obstacle? = none := hwritten
  rw [Store.answer_of_written hcall] at h
  exact (Store.settle_updateCollection_error_iff.mp h).1

theorem insertion_completes {place : Place} {element : Value} {id : Int} {doc : Document}
    {s : Store} (hstored : StoredAs element id doc)
    (honly : (s.collection place).OnlyUniqueId) (hids : (s.collection place).IntegerIds)
    (habsent : some id ∉ (s.collection place).identifiers) :
    Completes Store.server [insertion place element] s
      (s.setCollection place ((s.collection place).adding [doc])) := by
  rw [← identifier_of_get? hstored.identified] at habsent
  have hinsert := Collection.insert_absent honly hids hstored.integerIdentified
    hstored.stored habsent
  have hanswer : Store.server.answer (.insertOne place doc) s =
      (.ok (), s.setCollection place ((s.collection place).adding [doc])) := by
    rw [Store.answer_of_written (hstored.obstacle_call place)]
    exact Store.settle_updateCollection_ok_iff.mpr ⟨_, hinsert, rfl⟩
  rw [insertion_of_document hstored.toDocument]
  exact completes_attempt_iff.mpr ⟨(), hanswer⟩

/-- An element whose identifier is present is refused by a unique index, and
reported under its identifier. -/
theorem insertion_refused {place : Place} {element : Value} {id : Int} {doc : Document}
    {s : Store} (hstored : StoredAs element id doc)
    (hindex : Index.uniqueId ∈ (s.collection place).indexes)
    (hids : (s.collection place).IntegerIds)
    (hpresent : some id ∈ (s.collection place).identifiers) :
    ∃ index ∈ (s.collection place).indexes, index.unique = true ∧
      Stops Store.server [insertion place element] s
        (Failure.because (.duplicateEntity (.text place.collection) (.int id))
          (Failure.of (Collection.repeatedKey index doc))) s := by
  rw [← identifier_of_get? hstored.identified] at hpresent
  obtain ⟨index, hmem, hunique, hinsert⟩ := Collection.insert_present hindex hids
    hstored.integerIdentified hstored.stored hpresent
  have hanswer : Store.server.answer (.insertOne place doc) s =
      (.error (Failure.of (Collection.repeatedKey index doc)), s) := by
    rw [Store.answer_of_written (hstored.obstacle_call place)]
    exact Store.settle_updateCollection_error_iff.mpr ⟨hinsert, rfl⟩
  have hreport : whenInsertRefused place.collection element
      (Failure.of (Collection.repeatedKey index doc)) =
        Failure.because (.duplicateEntity (.text place.collection) (.int id))
          (Failure.of (Collection.repeatedKey index doc)) := by
    simp only [whenInsertRefused, hstored.member]
    rfl
  have hstops := stops_attempt hanswer (whenInsertRefused place.collection element)
  rw [hreport, ← insertion_of_document hstored.toDocument] at hstops
  exact ⟨index, hmem, hunique, hstops⟩

theorem insertion_stops {place : Place} {element : Value} {id : Int} {doc : Document}
    {s : Store} (hstored : StoredAs element id doc)
    (honly : (s.collection place).OnlyUniqueId)
    (hindex : Index.uniqueId ∈ (s.collection place).indexes)
    (hids : (s.collection place).IntegerIds)
    (hpresent : some id ∈ (s.collection place).identifiers) :
    Stops Store.server [insertion place element] s (identifierTaken place id doc) s := by
  obtain ⟨index, hmem, hunique, hstops⟩ := insertion_refused hstored hindex hids hpresent
  rw [honly index hmem hunique] at hstops
  exact hstops

section

variable {ι : Type} {element : ι → Value} {id : ι → Int} {document : ι → Document}
  (place : Place) {s : Store}

/-- A list of entities with new and distinct identifiers is inserted as a whole. -/
theorem insertions_complete {xs : List ι}
    (hstored : ∀ x ∈ xs, StoredAs (element x) (id x) (document x))
    (honly : (s.collection place).OnlyUniqueId) (hids : (s.collection place).IntegerIds)
    (hnew : (s.collection place).Admits (xs.map id)) :
    Completes Store.server (xs.map fun x => insertion place (element x)) s
      (s.setCollection place ((s.collection place).adding (xs.map document))) := by
  induction xs generalizing s with
  | nil =>
      rw [List.map_nil, List.map_nil, Collection.adding_nil, Store.setCollection_collection]
      exact Completes.nil s
  | cons x rest ih =>
      have hx := hstored x List.mem_cons_self
      have hfirst := insertion_completes hx honly hids (hnew.2 _ List.mem_cons_self)
      let after := s.setCollection place ((s.collection place).adding [document x])
      have hc : after.collection place = (s.collection place).adding [document x] :=
        Store.collection_setCollection_self _ _ _
      have hrest := ih (s := after) (fun y hy => hstored y (List.mem_cons_of_mem _ hy))
        (by rw [hc]; exact honly)
        (by rw [hc]; exact hids.adding (by simpa using hx.integerIdentified))
        (by rw [hc]; exact hnew.tail (identifier_of_get? hx.identified))
      rw [hc, Collection.adding_adding, Store.setCollection_setCollection] at hrest
      exact hfirst.append hrest

/-- The first entity whose identifier is taken ends the insertion; the ones
before it stay. -/
theorem insertions_stop {before after : List ι} {x : ι}
    (hstored : ∀ y ∈ before ++ x :: after, StoredAs (element y) (id y) (document y))
    (honly : (s.collection place).OnlyUniqueId)
    (hindex : Index.uniqueId ∈ (s.collection place).indexes)
    (hids : (s.collection place).IntegerIds)
    (hnew : (s.collection place).Admits (before.map id))
    (htaken : some (id x) ∈ (s.collection place).identifiers ∨ id x ∈ before.map id) :
    Stops Store.server ((before ++ x :: after).map fun y => insertion place (element y)) s
      (identifierTaken place (id x) (document x))
      (s.setCollection place ((s.collection place).adding (before.map document))) := by
  have hbefore := insertions_complete place (fun y hy => hstored y (List.mem_append_left _ hy))
    honly hids hnew
  have hx := hstored x (by simp)
  let reached := s.setCollection place ((s.collection place).adding (before.map document))
  have hc : reached.collection place = (s.collection place).adding (before.map document) :=
    Store.collection_setCollection_self _ _ _
  have hdocuments : ∀ doc ∈ before.map document, IntegerIdentified doc := by
    intro doc hdoc
    obtain ⟨y, hy, rfl⟩ := List.mem_map.mp hdoc
    exact (hstored y (List.mem_append_left _ hy)).integerIdentified
  have hpresent : some (id x) ∈ (reached.collection place).identifiers := by
    rw [hc, Collection.identifiers_adding]
    rcases htaken with hold | hearlier
    · exact List.mem_append_left _ hold
    · obtain ⟨y, hy, hyx⟩ := List.mem_map.mp hearlier
      have hidentifier := identifier_of_get? (hstored y (List.mem_append_left _ hy)).identified
      refine List.mem_append_right _ (List.mem_map.mpr ⟨document y, List.mem_map_of_mem hy, ?_⟩)
      rw [hidentifier, hyx]
  have hlast := insertion_stops (s := reached) hx (by rw [hc]; exact honly)
    (by rw [hc]; exact hindex) (by rw [hc]; exact hids.adding hdocuments) hpresent
  rw [List.map_append, List.map_cons]
  exact hbefore.append_stops (hlast.append _)

end

end Seeding

end InitialLoad
