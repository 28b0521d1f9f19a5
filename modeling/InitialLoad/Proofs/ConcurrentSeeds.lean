import InitialLoad.Proofs.PrincipalLock
import InitialLoad.Proofs.SeedRace
import InitialLoad.Proofs.SeedTable
import Mathlib.Data.List.Nodup

/-!
# Concurrent seeds

What becomes of the seeds that race for a database without users and documents.
A refused insertion is reported as a duplicate, and so is a database user that
exists; only a principal that cannot be written, or an index that has the name of
a declared one, can make a seed fail in another way.  With no index in the way, a
seed whose principal can be written fails only because it is outrun: its database
user exists before its first call, or another seed has inserted the apps.  So the
leader cannot fail, and when all seeds have ended it has inserted everything.
-/

namespace InitialLoad

namespace Collection

open Index (uniqueId)

/-- Creating the declared index does not give its name to another one. -/
theorem NameTaken.of_createIndex {c d : Collection} (hd : c.createIndex uniqueId = .ok d)
    (h : d.NameTaken) : c.NameTaken := by
  rcases createIndex_ok hd with rfl | rfl
  · exact h
  · obtain ⟨other, hfind, hne⟩ := h
    rw [List.find?_append] at hfind
    cases hold : c.indexes.find? (fun index => index.name = uniqueId.name) with
    | none =>
        have hsame : uniqueId = other := by simpa [hold] using hfind
        exact absurd hsame.symm hne
    | some index =>
        rw [hold] at hfind
        cases hfind
        exact ⟨other, hold, hne⟩

theorem OnlyUniqueId.createIndex {c d : Collection} (h : c.OnlyUniqueId)
    (hd : c.createIndex uniqueId = .ok d) : d.OnlyUniqueId := by
  rcases createIndex_ok hd with rfl | rfl
  · exact h
  · intro index hmem hunique
    rcases List.mem_append.mp hmem with hold | hnew
    · exact h index hold hunique
    · exact List.mem_singleton.mp hnew

/-- No index stands in the way of the declared one, or of distinct identifiers. -/
structure Unhindered (c : Collection) : Prop where
  name : ¬ c.NameTaken
  onlyUniqueId : c.OnlyUniqueId

theorem unhindered_empty : empty.Unhindered := by
  refine ⟨?_, ?_⟩
  · rintro ⟨other, hfind, -⟩
    cases hfind
  · intro index hmem
    cases hmem

end Collection

/-- No other index than the declared one is created by the call. -/
def Request.Declared : Request → Prop
  | .createIndex _ keys options => Index.described? keys options = some Index.uniqueId
  | _ => True

namespace Store

variable {q : Request} {s : Store} {place : Place}

theorem nameTaken_of_answer (hq : q.Declared)
    (h : ((answer q s).2.collection place).NameTaken) : (s.collection place).NameTaken := by
  rcases answer_collection q s place with heq | ⟨index, ⟨keys, options, rfl, hindex⟩, hcreate⟩ |
    ⟨doc, rfl, hinsert⟩
  · rwa [heq] at h
  · cases hindex.symm.trans hq
    exact h.of_createIndex hcreate
  · rwa [(Collection.insert_ok hinsert).2] at h

theorem onlyUniqueId_answer (hq : q.Declared) (h : (s.collection place).OnlyUniqueId) :
    ((answer q s).2.collection place).OnlyUniqueId := by
  rcases answer_collection q s place with heq | ⟨index, ⟨keys, options, rfl, hindex⟩, hcreate⟩ |
    ⟨doc, rfl, hinsert⟩
  · rwa [heq]
  · cases hindex.symm.trans hq
    exact h.createIndex hcreate
  · rwa [(Collection.insert_ok hinsert).2]

theorem unhindered_answer (hq : q.Declared) (h : (s.collection place).Unhindered) :
    ((answer q s).2.collection place).Unhindered :=
  ⟨mt (nameTaken_of_answer hq) h.name, onlyUniqueId_answer hq h.onlyUniqueId⟩

end Store

namespace Seeding

variable {ι : Type} {database : Text} {apps : List App} {users : List User}
  {principals : ι → DatabaseUser}

/-- Apps and users that can all be loaded into an empty database: at least one
app, and no identifier twice. -/
structure Loadable (apps : List App) (users : List User) : Prop where
  nonempty : apps ≠ []
  distinctApps : (apps.map App.id).Nodup
  distinctUsers : (users.map User.id).Nodup
  encodableApps : ∀ a ∈ apps, a.Encodable
  encodableUsers : ∀ u ∈ users, u.Encodable

/-! ## Identifiers of the lists -/

theorem identifiers_of_documented {κ : Type} {element : κ → Value} {id : κ → Int}
    {document : κ → Document} (h : ∀ x, Documented (element x) (id x) (document x)) (xs : List κ) :
    (xs.map document).map identifier = (xs.map id).map some := by
  rw [List.map_map, List.map_map]
  exact List.map_congr_left fun x _ => identifier_of_get? (h x).identified

theorem distinct_apps (hloadable : Loadable apps users) (p : DatabaseUser) :
    (((calls database p apps users).filterMap (Request.insertion? (appsOf database))).map
      identifier).Nodup := by
  rw [insertions_calls, if_pos rfl, if_neg (appsOf_ne_usersOf database).symm, List.append_nil,
    identifiers_of_documented App.documented]
  exact List.Nodup.map (fun _ _ h => Option.some.inj h) hloadable.distinctApps

theorem distinct_users (hloadable : Loadable apps users) (p : DatabaseUser) :
    (((calls database p apps users).filterMap (Request.insertion? (usersOf database))).map
      identifier).Nodup := by
  rw [insertions_calls, if_pos rfl, if_neg (appsOf_ne_usersOf database), List.nil_append,
    identifiers_of_documented User.documented]
  exact List.Nodup.map (fun _ _ h => Option.some.inj h) hloadable.distinctUsers

/-- A document that the leader has still to insert is not there yet. -/
theorem absent_of_next {accepted : List Request} {place : Place} {doc : Document} {c : Collection}
    {p : DatabaseUser} (hstored : Value.storedEntries doc = doc)
    (hdocuments : c.documents = accepted.filterMap (Request.insertion? place))
    (hdistinct : (((calls database p apps users).filterMap (Request.insertion? place)).map
      identifier).Nodup)
    (hnext : accepted ++ [.insertOne place doc] <+: calls database p apps users) :
    identifier doc ∉ c.identifiers := by
  have hlonger := (hnext.filterMap (Request.insertion? place)).map identifier
  have hlast : Request.insertion? place (.insertOne place doc) = some doc := by
    simp [Request.insertion?, hstored]
  rw [List.filterMap_append, ← hdocuments, List.filterMap_cons_some hlast, List.map_append]
    at hlonger
  have hnodup := hdistinct.sublist hlonger.sublist
  intro hmem
  exact (List.nodup_append.mp hnodup).2.2 _ hmem _ List.mem_cons_self rfl

/-! ## Refusals -/

/-- Something of the same name or identifier is reported to exist. -/
def ReportsDuplicate (f : Failure) : Prop := ∃ kind key, f.problem = .duplicateEntity kind key

/-- A failure that reports a duplicate, or that another index of the apps or of
the users has the name of the declared one, or why the principal cannot be written. -/
inductive Explained (database : Text) (p : DatabaseUser) (s : Store) : Failure → Prop
  | duplicate {f : Failure} (h : ReportsDuplicate f) : Explained database p s f
  | nameTaken (h : (s.collection (appsOf database)).NameTaken ∨
      (s.collection (usersOf database)).NameTaken) :
      Explained database p s Collection.nameTaken
  | unwritten {problem : Problem} (h : p.obstacle? = some problem) :
      Explained database p s (Failure.of problem)

/-- A refused creation means that the database user cannot be written, or that it
exists; either is reported. -/
theorem user_of_refusal {p : DatabaseUser} {s t : Store} {f : Failure}
    (hanswer : Store.server.answer
      (.createUser database (.text p.user) (.text p.pwd) p.grants) s = (.error f, t)) :
    (∃ problem, p.obstacle? = some problem ∧
      whenUserRefused (.text p.user) f = Failure.of problem) ∨
    s.hasUser database (.text p.user) = true ∧
      whenUserRefused (.text p.user) f = userTaken database p := by
  have hreported : (perform Store.server [creation database p] s).failure =
      some (whenUserRefused (.text p.user) f) := (stops_attempt hanswer _).1
  rcases unwritten_or_present_or_admitted database p s with
    ⟨problem, hobstacle⟩ | ⟨hencodable, huser⟩ | hadmits
  · have hstops := (creation_unwritten database hobstacle s).1
    exact Or.inl ⟨problem, hobstacle, Option.some.inj (hreported.symm.trans hstops)⟩
  · have hstops := (creation_stops hencodable huser).1
    exact Or.inr ⟨huser, Option.some.inj (hreported.symm.trans hstops)⟩
  · cases hreported.symm.trans (creation_completes hadmits).1

/-- A refused insertion is reported as a duplicate, whichever index refuses it. -/
theorem reports_of_refusal {place : Place} {element : Value} {id : Int} {doc : Document}
    {s t : Store} {f : Failure} (hstored : StoredAs element id doc)
    (hanswer : Store.server.answer (.insertOne place doc) s = (.error f, t)) :
    ReportsDuplicate (whenInsertRefused place.collection element f) := by
  have hinsert := insert_of_refusal hstored.obstacle hanswer
  simp only [Collection.insert] at hinsert
  split at hinsert
  · cases hinsert
    refine ⟨.text place.collection, .int id, ?_⟩
    simp only [whenInsertRefused, hstored.member]
    rfl
  · cases hinsert

/-- Without another unique index an insertion is refused only for its identifier. -/
theorem present_of_refusal {place : Place} {element : Value} {id : Int} {doc : Document}
    {s t : Store} {f : Failure} (hstored : StoredAs element id doc)
    (honly : (s.collection place).OnlyUniqueId) (hids : (s.collection place).IntegerIds)
    (hanswer : Store.server.answer (.insertOne place doc) s = (.error f, t)) :
    identifier doc ∈ (s.collection place).identifiers := by
  by_contra habsent
  have haccepted := Collection.insert_absent honly hids hstored.integerIdentified
    hstored.stored habsent
  rw [insert_of_refusal hstored.obstacle hanswer] at haccepted
  cases haccepted

/-- Whoever has had calls accepted, all of them written, has a principal that can be
written, since the creation of its database user comes first. -/
theorem encodable_of_written {p : DatabaseUser} {accepted : List Request}
    (hcalls : accepted <+: calls database p apps users)
    (hwritten : ∀ q ∈ accepted, q.obstacle? = none) (hsome : accepted ≠ []) : p.Encodable := by
  obtain ⟨first, rest, rfl⟩ := List.exists_cons_of_ne_nil hsome
  have hfirst : first = .createUser database (.text p.user) (.text p.pwd) p.grants :=
    (List.cons_prefix_cons.mp hcalls).1
  have hnone := hwritten first List.mem_cons_self
  rw [hfirst] at hnone
  exact p.obstacle?_eq_none_iff.mp hnone

/-- Why a seed that inserts nothing has to end: its database user exists before
its first call, or the apps of the leader are there. -/
def Outrun (database : Text) (p : DatabaseUser) (t : Thread (Except Failure Summary))
    (s : Store) : Prop :=
  ¬ t.Inserted ∧ (t.accepted = [] ∧ s.hasUser database (.text p.user) = true ∨
    (s.collection (appsOf database)).documents ≠ [])

section

variable {w : SeedWorld ι} {i : ι}

/-- The creation of an index is refused only for its name. -/
theorem Race.createIndex_refused {place : Place} {f : Failure} {s : Store}
    (hloadable : Loadable apps users) (h : Race database apps users principals w)
    (hplace : place = appsOf database ∨ place = usersOf database)
    (hanswer : Store.server.answer (.createIndex place Layout.idKeys [("unique", .bool true)])
      w.state = (.error f, s)) :
    (w.state.collection place).NameTaken ∧ f = Collection.nameTaken := by
  have hrefused := createIndex_of_refusal hanswer
  obtain ⟨k, hk⟩ := h.leader
  have hcalls := (h.underway k).accepted_calls
  have hsound : (w.state.collection place).IntegerIds ∧
      (w.state.collection place).identifiers.Nodup := by
    rcases hplace with rfl | rfl
    · have hdistinct := (distinct_apps hloadable (principals k)).sublist
        ((hcalls.filterMap (Request.insertion? (appsOf database))).map identifier).sublist
      rw [← hk.apps] at hdistinct
      exact ⟨h.integerIds_apps, hdistinct⟩
    · have hdistinct := (distinct_users hloadable (principals k)).sublist
        ((hcalls.filterMap (Request.insertion? (usersOf database))).map identifier).sublist
      rw [← hk.users] at hdistinct
      exact ⟨h.integerIds_users, hdistinct⟩
  by_cases hname : (w.state.collection place).NameTaken
  · rw [Collection.createIndex_nameTaken hname] at hrefused
    cases hrefused
    exact ⟨hname, rfl⟩
  · rw [Collection.createIndex_distinct hname hsound.1 hsound.2] at hrefused
    cases hrefused

/-- **A refusal is explained** by a duplicate, by an index that has the name of a
declared one, or by a principal that cannot be written. -/
theorem Race.explained {q : Request} {f : Failure} {report : Failure → Failure}
    (hloadable : Loadable apps users) (h : Race database apps users principals w)
    (hstage : .attempt (.ok q) report ∈ seedCourse database (principals i) apps users)
    (hanswer : Store.server.answer q w.state = (.error f, w.state)) :
    Explained database (principals i) w.state (report f) := by
  rcases attempt_cases hstage with ⟨rfl, rfl⟩ | ⟨place, hplace, rfl, rfl⟩ | ⟨a, ha, rfl, rfl⟩ |
    ⟨u, hu, rfl, rfl⟩
  · rcases user_of_refusal hanswer with ⟨problem, hobstacle, hreport⟩ | ⟨-, hreport⟩
    · rw [hreport]
      exact .unwritten hobstacle
    · rw [hreport]
      exact .duplicate ⟨_, _, rfl⟩
  · obtain ⟨hname, rfl⟩ := h.createIndex_refused hloadable hplace hanswer
    refine .nameTaken ?_
    rcases hplace with rfl | rfl
    · exact Or.inl hname
    · exact Or.inr hname
  · exact .duplicate (reports_of_refusal (App.storedAs (hloadable.encodableApps a ha)) hanswer)
  · exact .duplicate (reports_of_refusal (User.storedAs (hloadable.encodableUsers u hu)) hanswer)

/-- A seed whose insertion is refused for its identifier inserts nothing at all,
and the apps of the leader are there. -/
theorem Race.outrun_of_present {place : Place} {doc : Document}
    (hloadable : Loadable apps users) (h : Race database apps users principals w)
    (hplace : place = appsOf database ∨ place = usersOf database)
    (hstored : Value.storedEntries doc = doc)
    (hnext : (w.threads i).accepted ++ [.insertOne place doc] <+:
      calls database (principals i) apps users)
    (hpresent : identifier doc ∈ (w.state.collection place).identifiers) :
    Outrun database (principals i) (w.threads i) w.state := by
  obtain ⟨k, hk⟩ := h.leader
  have hnone : ¬ (w.threads i).Inserted := by
    intro hinserted
    have hlead := hk.eq_of_inserted hinserted
    subst hlead
    rcases hplace with rfl | rfl
    · exact absent_of_next hstored hk.apps (distinct_apps hloadable _) hnext hpresent
    · exact absent_of_next hstored hk.users (distinct_users hloadable _) hnext hpresent
  refine ⟨hnone, Or.inr ?_⟩
  obtain ⟨a, rest, rfl⟩ := List.exists_cons_of_ne_nil hloadable.nonempty
  obtain ⟨-, rfl, -⟩ := next_insertion hnext hnone
  intro hempty
  rw [Collection.identifiers, hempty] at hpresent
  cases hpresent

/-- **With no index in the way a refusal comes from being outrun**, if the principal
can be written. -/
theorem Race.outrun {q : Request} {f : Failure} {report : Failure → Failure}
    (hloadable : Loadable apps users) (h : Race database apps users principals w)
    (hencodable : (principals i).Encodable)
    (happs : (w.state.collection (appsOf database)).Unhindered)
    (husers : (w.state.collection (usersOf database)).Unhindered)
    (hnext : (w.threads i).accepted ++ [q] <+: calls database (principals i) apps users)
    (hstage : .attempt (.ok q) report ∈ seedCourse database (principals i) apps users)
    (hanswer : Store.server.answer q w.state = (.error f, w.state)) :
    Outrun database (principals i) (w.threads i) w.state := by
  rcases attempt_cases hstage with ⟨rfl, rfl⟩ | ⟨place, hplace, rfl, rfl⟩ | ⟨a, ha, rfl, rfl⟩ |
    ⟨u, hu, rfl, rfl⟩
  · have hnil := accepted_nil_of_creation hnext
    rcases user_of_refusal hanswer with ⟨problem, hobstacle, -⟩ | ⟨huser, -⟩
    · cases hobstacle.symm.trans ((principals i).obstacle?_eq_none_iff.mpr hencodable)
    · refine ⟨?_, Or.inl ⟨hnil, huser⟩⟩
      rintro ⟨place, doc, hmem⟩
      rw [hnil] at hmem
      cases hmem
  · have hname := (h.createIndex_refused hloadable hplace hanswer).1
    rcases hplace with rfl | rfl
    · exact absurd hname happs.name
    · exact absurd hname husers.name
  · have hpresent := present_of_refusal (App.storedAs (hloadable.encodableApps a ha))
      happs.onlyUniqueId h.integerIds_apps hanswer
    exact h.outrun_of_present hloadable (Or.inl rfl) a.storedEntries_document hnext hpresent
  · have hpresent := present_of_refusal (User.storedAs (hloadable.encodableUsers u hu))
      husers.onlyUniqueId h.integerIds_users hanswer
    exact h.outrun_of_present hloadable (Or.inr rfl) u.storedEntries_document hnext hpresent

end

/-! ## The race, turn by turn -/

/-- Every seed that has failed reports a duplicate, or that its principal cannot be
written, or that an index had the name of a declared one in the store `s` to begin
with. -/
structure Reported (database : Text) (principals : ι → DatabaseUser) (s : Store)
    (w : SeedWorld ι) : Prop where
  names : ∀ place, (w.state.collection place).NameTaken → (s.collection place).NameTaken
  failed : ∀ i f, (w.threads i).result? = some (.error f) →
    Explained database (principals i) s f

/-- An index that has the name of a declared one now had it to begin with. -/
theorem Reported.since {s : Store} {w : SeedWorld ι} {p : DatabaseUser} {f : Failure}
    (hreported : Reported database principals s w) (h : Explained database p w.state f) :
    Explained database p s f := by
  cases h with
  | duplicate hduplicate => exact .duplicate hduplicate
  | nameTaken hname => exact .nameTaken (hname.imp (hreported.names _) (hreported.names _))
  | unwritten hobstacle => exact .unwritten hobstacle

/-- No index stands in the way, every accepted call was written, every database user is
that of a seed, and every seed that has failed was outrun, if its principal can be
written. -/
structure Clear (database : Text) (principals : ι → DatabaseUser) (w : SeedWorld ι) : Prop where
  apps : (w.state.collection (appsOf database)).Unhindered
  users : (w.state.collection (usersOf database)).Unhindered
  written : ∀ i, ∀ q ∈ (w.threads i).accepted, q.obstacle? = none
  created : ∀ user, w.state.hasUser database user = true → ∃ i, (w.threads i).accepted ≠ []
  failed : ∀ i f, (principals i).Encodable → (w.threads i).result? = some (.error f) →
    Outrun database (principals i) (w.threads i) w.state

section

variable {w v : SeedWorld ι} {i : ι} {q : Request}

/-- Whoever was outrun stays outrun, whatever is called. -/
theorem Outrun.answer {p : DatabaseUser} {t u : Thread (Except Failure Summary)} {s : Store}
    (h : Outrun database p t s) (haccepted : u.accepted = t.accepted) (q : Request) :
    Outrun database p u (Store.answer q s).2 := by
  obtain ⟨hnone, hwhy⟩ := h
  unfold Outrun Thread.Inserted
  rw [haccepted]
  refine ⟨hnone, hwhy.imp (And.imp_right (Store.hasUser_answer q s)) ?_⟩
  intro hsome hempty
  have hkept := Store.documents_answer q s (appsOf database)
  rw [hempty] at hkept
  exact hsome (List.prefix_nil.mp hkept)

/-- Without an accepted call only a failure of the thread itself can be new. -/
theorem Clear.still (hclear : Clear database principals w) (hstate : v.state = w.state)
    (haccepted : (v.threads i).accepted = (w.threads i).accepted)
    (hothers : ∀ j, j ≠ i → v.threads j = w.threads j)
    (hfailed : ∀ f, (principals i).Encodable → (v.threads i).result? = some (.error f) →
      Outrun database (principals i) (w.threads i) w.state) :
    Clear database principals v := by
  have hall : ∀ j, (v.threads j).accepted = (w.threads j).accepted := by
    intro j
    by_cases hj : j = i
    · exact hj ▸ haccepted
    · rw [hothers j hj]
  refine ⟨hstate ▸ hclear.apps, hstate ▸ hclear.users, ?_, ?_, ?_⟩
  · intro j
    rw [hall]
    exact hclear.written j
  · intro user huser
    obtain ⟨j, hj⟩ := hclear.created user (hstate ▸ huser)
    exact ⟨j, by rwa [hall]⟩
  · intro j f hencodable hf
    by_cases hj : j = i
    · subst hj
      unfold Outrun Thread.Inserted
      rw [hstate, haccepted]
      exact hfailed f hencodable hf
    · rw [hothers j hj] at hf ⊢
      rw [hstate]
      exact hclear.failed j f hencodable hf

/-- An accepted call leaves nothing in the way. -/
theorem Clear.advance (hclear : Clear database principals w) (hadvances : Advances w i q v)
    (hdeclared : q.Declared) (hothers : ∀ j, j ≠ i → v.threads j = w.threads j)
    (hresult : (v.threads i).result? = none) : Clear database principals v := by
  obtain ⟨a, hanswer⟩ := hadvances.answered
  have hv : v.state = (Store.answer q w.state).2 := (congrArg Prod.snd hanswer).symm
  refine ⟨?_, ?_, ?_, ?_, ?_⟩
  · rw [hv]
    exact Store.unhindered_answer hdeclared hclear.apps
  · rw [hv]
    exact Store.unhindered_answer hdeclared hclear.users
  · intro j r hr
    by_cases hj : j = i
    · subst hj
      rw [hadvances.self, List.mem_append, List.mem_singleton] at hr
      rcases hr with hold | rfl
      · exact hclear.written j r hold
      · exact (Store.carriedOut_of_accepted hanswer).1
    · rw [hadvances.others j hj] at hr
      exact hclear.written j r hr
  · intro user _
    exact ⟨i, by simp [hadvances.self]⟩
  · intro j f hencodable hfailed
    by_cases hj : j = i
    · subst hj
      rw [hresult] at hfailed
      cases hfailed
    · rw [hothers j hj] at hfailed ⊢
      rw [hv]
      exact (hclear.failed j f hencodable hfailed).answer rfl q

theorem declared_of_mem_calls {p : DatabaseUser} (hq : q ∈ calls database p apps users) :
    q.Declared := by
  simp only [calls, setUp, appCalls, userCalls, List.mem_append, List.mem_cons, List.not_mem_nil,
    or_false, List.mem_map] at hq
  rcases hq with (rfl | rfl | rfl) | ⟨a, -, rfl⟩ | ⟨u, -, rfl⟩
  · trivial
  · exact Index.described?_declared
  · exact Index.described?_declared
  · trivial
  · trivial

variable [DecidableEq ι]

theorem Reported.turn {s : Store} (hloadable : Loadable apps users)
    (h : Race database apps users principals w) (hreported : Reported database principals s w)
    (i : ι) : Reported database principals s (w.turn Store.server i) := by
  have hothers : ∀ j, j ≠ i → (w.turn Store.server i).threads j = w.threads j :=
    fun j hj => World.turn_of_ne _ hj w
  have hfailed : (∀ f, ((w.turn Store.server i).threads i).result? = some (.error f) →
        Explained database (principals i) s f) →
      ∀ j f, ((w.turn Store.server i).threads j).result? = some (.error f) →
        Explained database (principals j) s f := by
    intro hself j f hf
    by_cases hj : j = i
    · subst hj
      exact hself f hf
    · rw [hothers j hj] at hf
      exact hreported.failed j f hf
  cases h.turned i with
  | quiet hstate haccepted hresult =>
      refine ⟨fun place hname => hreported.names place (hstate ▸ hname), hfailed ?_⟩
      exact fun f hf => hreported.failed i f (hresult f hf)
  | refused hstate hnext hstage hanswer haccepted hresult =>
      refine ⟨fun place hname => hreported.names place (hstate ▸ hname), hfailed ?_⟩
      intro f hf
      rw [hresult, Option.some.injEq, Except.error.injEq] at hf
      rw [← hf]
      exact hreported.since (h.explained hloadable hstage hanswer)
  | accepted hnext hanswer haccepted hresult =>
      have hcall := hnext.subset (List.mem_append_right _ (List.mem_singleton.mpr rfl))
      refine ⟨?_, hfailed ?_⟩
      · intro place hname
        rw [show (w.turn Store.server i).state = _ from (congrArg Prod.snd hanswer).symm] at hname
        exact hreported.names place (Store.nameTaken_of_answer (declared_of_mem_calls hcall) hname)
      · intro f hf
        rw [hresult] at hf
        cases hf

/-- A turn leaves nothing in the way. -/
theorem Clear.turn (hloadable : Loadable apps users) (h : Race database apps users principals w)
    (hclear : Clear database principals w) (i : ι) :
    Clear database principals (w.turn Store.server i) := by
  have hothers : ∀ j, j ≠ i → (w.turn Store.server i).threads j = w.threads j :=
    fun j hj => World.turn_of_ne _ hj w
  cases h.turned i with
  | quiet hstate haccepted hresult =>
      exact hclear.still hstate haccepted hothers fun f hencodable hf =>
        hclear.failed i f hencodable (hresult f hf)
  | refused hstate hnext hstage hanswer haccepted hresult =>
      exact hclear.still hstate haccepted hothers fun _ hencodable _ =>
        h.outrun hloadable hencodable hclear.apps hclear.users hnext hstage hanswer
  | accepted hnext hanswer haccepted hresult =>
      have hcall := hnext.subset (List.mem_append_right _ (List.mem_singleton.mpr rfl))
      exact hclear.advance ⟨⟨_, hanswer⟩, haccepted, fun j hj => by rw [hothers j hj]⟩
        (declared_of_mem_calls hcall) hothers hresult

end

/-! ## The end of the race -/

section

variable {w : SeedWorld ι} {i k : ι}

/-- A seed that has succeeded has inserted something. -/
theorem Race.inserted_of_ok {report : Summary} (happs : apps ≠ [])
    (h : Race database apps users principals w)
    (hresult : (w.threads i).result? = some (.ok report)) : (w.threads i).Inserted := by
  obtain ⟨a, rest, rfl⟩ := List.exists_cons_of_ne_nil happs
  refine ⟨appsOf database, a.document, ?_⟩
  rw [(h.underway i).accepted_of_ok hresult]
  simp [calls, appCalls]

/-- The documents are complete once the leader has succeeded. -/
theorem Race.complete {report : Summary} (happs : apps ≠ [])
    (h : Race database apps users principals w)
    (hresult : (w.threads i).result? = some (.ok report)) :
    (w.state.collection (appsOf database)).documents = apps.map App.document ∧
      (w.state.collection (usersOf database)).documents = users.map User.document := by
  obtain ⟨k, hk⟩ := h.leader
  have hlead := hk.eq_of_inserted (h.inserted_of_ok happs hresult)
  subst hlead
  have hcalls := (h.underway i).accepted_of_ok hresult
  rw [hk.apps, hk.users, hcalls, insertions_calls, insertions_calls, if_pos rfl, if_pos rfl,
    if_neg (appsOf_ne_usersOf database).symm, if_neg (appsOf_ne_usersOf database),
    List.append_nil, List.nil_append]
  exact ⟨rfl, rfl⟩

/-- When all seeds have ended and one of them has a principal that can be written, one
has succeeded, for where all such seeds were outrun there is nobody who outran them. -/
theorem Race.exists_ok (h : Race database apps users principals w)
    (hclear : Clear database principals w) (hencodable : ∃ i, (principals i).Encodable)
    (hended : ∀ i, (w.threads i).result?.isSome = true) :
    ∃ i report, (w.threads i).result? = some (.ok report) := by
  by_contra hnobody
  have hfailed : ∀ i, (principals i).Encodable →
      Outrun database (principals i) (w.threads i) w.state := by
    intro i hi
    obtain ⟨result, hresult⟩ := Option.isSome_iff_exists.mp (hended i)
    cases result with
    | error f => exact hclear.failed i f hi hresult
    | ok report => exact absurd ⟨i, report, hresult⟩ hnobody
  have hbegun : ∀ i, (w.threads i).accepted ≠ [] → (principals i).Encodable := fun i hi =>
    encodable_of_written (h.underway i).accepted_calls (hclear.written i) hi
  have hnone : ∀ i, ¬ (w.threads i).Inserted := by
    rintro i ⟨place, doc, hmem⟩
    have hi := hbegun i (List.ne_nil_of_mem hmem)
    exact (hfailed i hi).1 ⟨place, doc, hmem⟩
  obtain ⟨k, hk⟩ := h.leader
  have hempty : (w.state.collection (appsOf database)).documents = [] := by
    rw [hk.apps]
    exact insertions_of_not_inserted (hnone k) _
  have hidle : ∀ i, (principals i).Encodable → (w.threads i).accepted = [] ∧
      w.state.hasUser database (.text (principals i).user) = true := by
    intro i hi
    exact (hfailed i hi).2.resolve_right fun hsome => hsome hempty
  obtain ⟨i, hi⟩ := hencodable
  obtain ⟨j, hj⟩ := hclear.created _ (hidle i hi).2
  exact hj (hidle j (hbegun j hj)).1

end

section

variable {s : Store}

/-- Seeds that have not begun, on a database without users and documents. -/
theorem race_start [Nonempty ι] (principals : ι → DatabaseUser) (clocks : ι → Clock)
    (happs : (s.collection (appsOf database)).documents = [])
    (husers : (s.collection (usersOf database)).documents = []) :
    Race database apps users principals
      (World.start (fun i => seedOf database (principals i) apps users) clocks s) := by
  obtain ⟨k⟩ := ‹Nonempty ι›
  refine ⟨fun i => .waiting (clocks i), ⟨k, ?_, happs, husers⟩, ?_⟩
  · rintro i - ⟨place, doc, hmem⟩
    cases hmem
  · intro i hmem
    cases hmem

theorem reported_start (principals : ι → DatabaseUser) (clocks : ι → Clock) :
    Reported database principals s
      (World.start (fun i => seedOf database (principals i) apps users) clocks s) := by
  refine ⟨fun _ hname => hname, ?_⟩
  intro i f hfailed
  simp only [World.start, Thread.start, seedOf_eq] at hfailed
  cases hfailed

theorem clear_start (principals : ι → DatabaseUser) (clocks : ι → Clock)
    (haccounts : ∀ user, s.hasUser database user = false)
    (happs : (s.collection (appsOf database)).Unhindered)
    (husers : (s.collection (usersOf database)).Unhindered) :
    Clear database principals
      (World.start (fun i => seedOf database (principals i) apps users) clocks s) := by
  refine ⟨happs, husers, ?_, ?_, ?_⟩
  · intro i q hq
    cases hq
  · intro user huser
    exact absurd (huser.symm.trans (haccounts user)) nofun
  · intro i f _ hfailed
    simp only [World.start, Thread.start, seedOf_eq] at hfailed
    cases hfailed

/-- A seed takes a turn for each of its stages, and two for its clock. -/
theorem within_seedOf (database : Text) (p : DatabaseUser) (apps : List App) (users : List User) :
    (seedOf database p apps users).Within ((seedCourse database p apps users).length + 2) := by
  rw [seedOf_eq]
  intro start
  have hclosing : (closing database p apps users start).Within 1 := fun _ => trivial
  exact within_enact hclosing _

variable [DecidableEq ι] [Nonempty ι]

/-- **Concurrent seeds leave one complete copy.**  Take seeds of one database with
the same loadable apps and users and a principal each, at least one seed, on a
database without users and without documents.  In whatever order they take
turns, the apps are at all times the first ones of the list and the users the
first ones of theirs, there are no users before all apps are there, and not more
than one seed has inserted anything.  A seed that has had its turns has ended,
and if it has failed it reports a duplicate, or an index that had the name of a
declared one from the start, or that its own principal cannot be written.  If no
index stands in the way and some principal can be written then, once all have
ended, exactly one has succeeded and the documents are exactly those of the two
lists. -/
theorem one_seed_wins (database : Text) (principals : ι → DatabaseUser) (clocks : ι → Clock)
    (hloadable : Loadable apps users) (haccounts : ∀ user, s.hasUser database user = false)
    (happs : (s.collection (appsOf database)).documents = [])
    (husers : (s.collection (usersOf database)).documents = []) (schedule : List ι) :
    let w := (World.start (fun i => seedOf database (principals i) apps users) clocks s).after
      Store.server schedule
    let storedApps := (w.state.collection (appsOf database)).documents
    let storedUsers := (w.state.collection (usersOf database)).documents
    storedApps <+: apps.map App.document ∧ storedUsers <+: users.map User.document ∧
    (storedUsers ≠ [] → storedApps = apps.map App.document) ∧
    (∀ i j, (w.threads i).Inserted → (w.threads j).Inserted → i = j) ∧
    (∀ i, (seedCourse database (principals i) apps users).length + 2 ≤ schedule.count i →
      (w.threads i).result?.isSome = true) ∧
    (∀ i f, (w.threads i).result? = some (.error f) →
      Explained database (principals i) s f) ∧
    ((s.collection (appsOf database)).Unhindered → (s.collection (usersOf database)).Unhindered →
      (∃ i, (principals i).Encodable) → (∀ i, (w.threads i).result?.isSome = true) →
        (∃! i, ∃ report, (w.threads i).result? = some (.ok report)) ∧
        storedApps = apps.map App.document ∧ storedUsers = users.map User.document) := by
  intro w storedApps storedUsers
  have hstart : Race database apps users principals _ := race_start principals clocks happs husers
  have hrace : Race database apps users principals w :=
    World.after_preserves (fun i w h => h.turn hloadable.nonempty i) schedule hstart
  obtain ⟨hprefixApps, hprefixUsers, hcomplete⟩ := hrace.documents
  refine ⟨hprefixApps, hprefixUsers, hcomplete, ?_, ?_, ?_, ?_⟩
  · intro i j hi hj
    obtain ⟨k, hk⟩ := hrace.leader
    rw [hk.eq_of_inserted hi, hk.eq_of_inserted hj]
  · intro i hturns
    exact World.ended_of_turns Store.server (within_seedOf _ _ _ _) hturns
  · have hturn : ∀ i (w : SeedWorld ι),
        Race database apps users principals w ∧ Reported database principals s w →
        Race database apps users principals (w.turn Store.server i) ∧
          Reported database principals s (w.turn Store.server i) :=
      fun i w h => ⟨h.1.turn hloadable.nonempty i, h.2.turn hloadable h.1 i⟩
    have hboth : Race database apps users principals w ∧ Reported database principals s w :=
      World.after_preserves hturn schedule ⟨hstart, reported_start principals clocks⟩
    exact hboth.2.failed
  · intro hfreeApps hfreeUsers hencodable hended
    have hturn : ∀ i (w : SeedWorld ι),
        Race database apps users principals w ∧ Clear database principals w →
        Race database apps users principals (w.turn Store.server i) ∧
          Clear database principals (w.turn Store.server i) :=
      fun i w h => ⟨h.1.turn hloadable.nonempty i, h.2.turn hloadable h.1 i⟩
    have hboth : Race database apps users principals w ∧ Clear database principals w :=
      World.after_preserves hturn schedule
        ⟨hstart, clear_start principals clocks haccounts hfreeApps hfreeUsers⟩
    obtain ⟨i, report, hresult⟩ := hrace.exists_ok hboth.2 hencodable hended
    refine ⟨⟨i, ⟨report, hresult⟩, ?_⟩, hrace.complete hloadable.nonempty hresult⟩
    rintro j ⟨other, hother⟩
    obtain ⟨k, hk⟩ := hrace.leader
    rw [hk.eq_of_inserted (hrace.inserted_of_ok hloadable.nonempty hresult),
      hk.eq_of_inserted (hrace.inserted_of_ok hloadable.nonempty hother)]

end

/-- Three seeds, two of them for the same principal, that take turns one after
the other leave one copy of two apps and a user. -/
theorem one_seed_of_three_wins :
    let principals : Fin 3 → DatabaseUser := fun i =>
      if i = 2 then ⟨"second", "secret", []⟩ else loader
    let apps : List App := [⟨1, "First App", 1, []⟩, ⟨2, "Arnold's App", 3, []⟩]
    let users : List User := [⟨1, "Arnold", some 72, "John Connor"⟩]
    let schedule : List (Fin 3) := (List.replicate 12 [0, 1, 2]).flatten
    let w := (World.start (fun i => seedOf "appstore" (principals i) apps users) (fun _ => [0])
      Store.empty).after Store.server schedule
    (∃! i, ∃ report, (w.threads i).result? = some (.ok report)) ∧
      (w.state.collection (appsOf "appstore")).documents = apps.map App.document ∧
      (w.state.collection (usersOf "appstore")).documents = users.map User.document := by
  intro principals apps users schedule w
  have hloadable : Loadable apps users := by
    refine ⟨nofun, by decide, by decide, ?_, ?_⟩
    · intro a ha
      simp only [apps, List.mem_cons, List.not_mem_nil, or_false] at ha
      rcases ha with rfl | rfl <;> exact ⟨by decide, by decide, by decide, by simp⟩
    · intro u hu
      simp only [users, List.mem_cons, List.not_mem_nil, or_false] at hu
      subst hu
      exact ⟨by decide, by decide, by decide, by decide⟩
  have hturns : ∀ i : Fin 3,
      (seedCourse "appstore" (principals i) apps users).length + 2 ≤ schedule.count i := by
    decide +kernel
  have hrace := one_seed_wins "appstore" principals (fun _ => [0]) hloadable (s := Store.empty)
    (fun _ => rfl) rfl rfl schedule
  have hended : ∀ i, (w.threads i).result?.isSome = true :=
    fun i => hrace.2.2.2.2.1 i (hturns i)
  have hfinal := hrace.2.2.2.2.2.2 Collection.unhindered_empty Collection.unhindered_empty
    ⟨0, loader_encodable⟩ hended
  have hw : (World.start (fun i => seedOf "appstore" (principals i) apps users) (fun _ => [0])
      Store.empty).after Store.server schedule = w := rfl
  rw [hw] at hfinal
  exact hfinal

/-- On a database without users and documents, where apps have an index of the
declared name that is not unique, a single seed fails, and it does not report a
duplicate. -/
theorem plainIndex_ends_only_seed :
    let apps : List App := [⟨1, "A", 1, []⟩]
    let s := Store.empty.setCollection (appsOf "appstore") plainlyIndexedApps
    let w := (World.start (fun _ : Unit => seedOf "appstore" loader apps []) (fun _ => [0])
      s).after Store.server (List.replicate 5 ())
    Loadable apps [] ∧ loader.Encodable ∧ (∀ user, s.hasUser "appstore" user = false) ∧
      (s.collection (appsOf "appstore")).documents = [] ∧
      (s.collection (usersOf "appstore")).documents = [] ∧
      ∃ f, (w.threads ()).result? = some (.error f) ∧ ¬ ReportsDuplicate f := by
  intro apps s w
  refine ⟨?_, loader_encodable, fun _ => rfl, rfl, rfl, Collection.nameTaken, ?_, ?_⟩
  · refine ⟨nofun, by decide, by decide, ?_, nofun⟩
    intro a ha
    rw [List.mem_singleton.mp ha]
    exact ⟨by decide, by decide, by decide, by simp⟩
  · rfl
  · rintro ⟨kind, key, h⟩
    cases h

end Seeding

end InitialLoad
