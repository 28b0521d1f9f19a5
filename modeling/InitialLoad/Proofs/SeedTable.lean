import InitialLoad.Proofs.Stores
import Mathlib.Data.List.Induction

/-!
# The decision table of a seed

What a seed of validated entities comes to, for every store.  A seed has four
phases on one store: the database user, the indexes, the apps, the users.  Each
can end it, and what the earlier phases did stays.  `SeedRow` lists the ways in
which a seed can end, one constructor each, with the result and the store that
is left; the conditions of the rows exclude each other.

`SeedRow.sound` and `exists_seedRow` make the table a description of the seed:
every row that applies is what the seed does, and some row applies.
-/

namespace InitialLoad

namespace Collection

/-- The documents have integer identifiers or none, and no index is unique but
the declared one. -/
structure Regular (c : Collection) : Prop where
  integerIds : c.IntegerIds
  onlyUniqueId : c.OnlyUniqueId

theorem Regular.indexed {c : Collection} (h : c.Regular) : (c.indexed.adding []).Regular := by
  rw [adding_nil]
  exact ⟨h.integerIds.indexed, h.onlyUniqueId.indexed⟩

theorem identifiers_indexed (c : Collection) :
    (c.indexed.adding []).identifiers = c.identifiers := by
  simp [identifiers]

theorem Admits.indexed {c : Collection} {ids : List Int} (h : c.Admits ids) :
    (c.indexed.adding []).Admits ids := by
  unfold Admits at *
  rw [identifiers_indexed]
  exact h

/-- The declared index cannot be created, and the refusal. -/
inductive RefusesIndex (c : Collection) : Failure → Prop
  /-- Another index has its name. -/
  | taken (hname : c.NameTaken) : RefusesIndex c nameTaken
  /-- Two documents have the same identifier, or both have none. -/
  | repeated (hname : ¬ c.NameTaken) (hrepeat : ¬ c.identifiers.Nodup) :
      RefusesIndex c identifierRepeated

/-- The declared index can be created. -/
structure TakesIndex (c : Collection) : Prop where
  name : ¬ c.NameTaken
  distinct : c.identifiers.Nodup

theorem RefusesIndex.createIndex {c : Collection} {f : Failure} (h : c.RefusesIndex f)
    (hids : c.IntegerIds) : c.createIndex Index.uniqueId = .error f := by
  cases h with
  | taken hname => exact createIndex_nameTaken hname
  | repeated hname hrepeat => exact createIndex_repeated hname hids hrepeat

theorem TakesIndex.createIndex {c : Collection} (h : c.TakesIndex) (hids : c.IntegerIds) :
    c.createIndex Index.uniqueId = .ok c.indexed :=
  createIndex_distinct h.name hids h.distinct

/-- Without an index nothing but a repeated identifier stands against the declared one. -/
theorem TakesIndex.of_unindexed {c : Collection} (hindexes : c.indexes = [])
    (hdistinct : c.identifiers.Nodup) : c.TakesIndex := by
  refine ⟨?_, hdistinct⟩
  rintro ⟨other, hfind, -⟩
  rw [hindexes] at hfind
  cases hfind

theorem Regular.of_unindexed {c : Collection} (hindexes : c.indexes = [])
    (hids : c.IntegerIds) : c.Regular :=
  ⟨hids, by intro index hmem; rw [hindexes] at hmem; cases hmem⟩

theorem regular_empty : empty.Regular := .of_unindexed rfl (.of_no_documents rfl)

theorem takesIndex_empty : empty.TakesIndex := .of_unindexed rfl List.nodup_nil

/-- The declared index can be created or it is refused. -/
theorem takesIndex_or_refusesIndex (c : Collection) :
    c.TakesIndex ∨ ∃ f, c.RefusesIndex f := by
  by_cases hname : c.NameTaken
  · exact Or.inr ⟨_, .taken hname⟩
  · by_cases hdistinct : c.identifiers.Nodup
    · exact Or.inl ⟨hname, hdistinct⟩
    · exact Or.inr ⟨_, .repeated hname hdistinct⟩

/-- Either a whole list is admitted, or there is a first entity in it whose
identifier is taken by a document or by an earlier entity. -/
theorem admits_or_first_taken {ι : Type} (id : ι → Int) (c : Collection) (xs : List ι) :
    c.Admits (xs.map id) ∨ ∃ before x after, xs = before ++ x :: after ∧
      c.Admits (before.map id) ∧
      (some (id x) ∈ c.identifiers ∨ id x ∈ before.map id) := by
  -- Induction from the end: the last entity decides once those before it are admitted.
  induction xs using List.reverseRecOn with
  | nil => exact Or.inl ⟨List.nodup_nil, by simp⟩
  | append_singleton xs x ih =>
      rcases ih with hadmits | ⟨before, y, after, rfl, hadmits, htaken⟩
      · by_cases htaken : some (id x) ∈ c.identifiers ∨ id x ∈ xs.map id
        · exact Or.inr ⟨xs, x, [], rfl, hadmits, htaken⟩
        · rw [not_or] at htaken
          refine Or.inl ⟨?_, ?_⟩
          · rw [List.map_append, List.nodup_append]
            refine ⟨hadmits.1, by simp, ?_⟩
            intro m hm n hn hmn
            simp only [List.map_cons, List.map_nil, List.mem_singleton] at hn
            exact htaken.2 (hn ▸ hmn ▸ hm)
          · intro n hn
            rw [List.map_append, List.mem_append] at hn
            rcases hn with hn | hn
            · exact hadmits.2 n hn
            · simp only [List.map_cons, List.map_nil, List.mem_singleton] at hn
              exact hn ▸ htaken.1
      · exact Or.inr ⟨before, y, after ++ [x], by simp, hadmits, htaken⟩

end Collection

namespace Seeding

/-- The store after the database user has been created, the indexes have been
created, and these documents have been inserted. -/
def loaded (database : Text) (p : DatabaseUser) (apps users : List Document) (s : Store) : Store :=
  ((s.withAccount database p).setCollection (appsOf database)
      ((s.collection (appsOf database)).indexed.adding apps)).setCollection (usersOf database)
    ((s.collection (usersOf database)).indexed.adding users)

/-- The rows of the decision table: how a seed can end in a store, its result,
and the store that it leaves. -/
inductive SeedRow (database : Text) (p : DatabaseUser) (apps : List App) (users : List User)
    (clock : Clock) (s : Store) : Except Failure Summary → Store → Prop
  /-- The principal cannot be written.  Nothing changes. -/
  | unwritten {problem : Problem} (hobstacle : p.obstacle? = some problem) :
      SeedRow database p apps users clock s (.error (Failure.of problem)) s
  /-- The database user exists.  Nothing changes. -/
  | userExists (hencodable : p.Encodable)
      (huser : s.hasUser database (.text p.user) = true) :
      SeedRow database p apps users clock s (.error (userTaken database p)) s
  /-- The index on apps is refused.  Only the database user is added. -/
  | appsRefused {f : Failure} (huser : s.AdmitsUser database p)
      (happs : (s.collection (appsOf database)).RefusesIndex f) :
      SeedRow database p apps users clock s (.error f) (s.withAccount database p)
  /-- The index on users is refused.  Apps have theirs by then. -/
  | usersRefused {f : Failure} (huser : s.AdmitsUser database p)
      (happs : (s.collection (appsOf database)).TakesIndex)
      (husers : (s.collection (usersOf database)).RefusesIndex f) :
      SeedRow database p apps users clock s (.error f)
        ((s.withAccount database p).setCollection (appsOf database)
          (s.collection (appsOf database)).indexed)
  /-- The identifier of an app is taken.  The apps before the first such one
  are added, and no users. -/
  | appTaken {before after : List App} {a : App}
      (huser : s.AdmitsUser database p)
      (happs : (s.collection (appsOf database)).TakesIndex)
      (husers : (s.collection (usersOf database)).TakesIndex)
      (hsplit : apps = before ++ a :: after)
      (hbefore : (s.collection (appsOf database)).Admits (before.map App.id))
      (htaken : some a.id ∈ (s.collection (appsOf database)).identifiers ∨
        a.id ∈ before.map App.id) :
      SeedRow database p apps users clock s
        (.error (identifierTaken (appsOf database) a.id a.document))
        (loaded database p (before.map App.document) [] s)
  /-- The identifier of a user is taken.  All apps and the users before the
  first such one are added. -/
  | userTaken {before after : List User} {u : User}
      (huser : s.AdmitsUser database p)
      (happs : (s.collection (appsOf database)).TakesIndex)
      (husers : (s.collection (usersOf database)).TakesIndex)
      (hadmits : (s.collection (appsOf database)).Admits (apps.map App.id))
      (hsplit : users = before ++ u :: after)
      (hbefore : (s.collection (usersOf database)).Admits (before.map User.id))
      (htaken : some u.id ∈ (s.collection (usersOf database)).identifiers ∨
        u.id ∈ before.map User.id) :
      SeedRow database p apps users clock s
        (.error (identifierTaken (usersOf database) u.id u.document))
        (loaded database p (apps.map App.document) (before.map User.document) s)
  /-- Nothing stands against the seed.  Everything is added. -/
  | complete (huser : s.AdmitsUser database p)
      (happs : (s.collection (appsOf database)).TakesIndex)
      (husers : (s.collection (usersOf database)).TakesIndex)
      (hadmitsApps : (s.collection (appsOf database)).Admits (apps.map App.id))
      (hadmitsUsers : (s.collection (usersOf database)).Admits (users.map User.id)) :
      SeedRow database p apps users clock s
        (.ok (summary database p (apps.map App.toValue) (users.map User.toValue) clock))
        (loaded database p (apps.map App.document) (users.map User.document) s)

/-! ## The store of a seed -/

section

variable (database : Text) (p : DatabaseUser) (apps users : List Document) (s : Store)

theorem loaded_apps : (loaded database p apps users s).collection (appsOf database) =
    (s.collection (appsOf database)).indexed.adding apps := by
  unfold loaded
  rw [Store.collection_setCollection_of_ne (appsOf_ne_usersOf database),
    Store.collection_setCollection_self]

theorem loaded_users : (loaded database p apps users s).collection (usersOf database) =
    (s.collection (usersOf database)).indexed.adding users :=
  Store.collection_setCollection_self _ _ _

theorem loaded_setApps (more : List Document) :
    (loaded database p apps users s).setCollection (appsOf database)
        ((s.collection (appsOf database)).indexed.adding more) =
      loaded database p more users s := by
  unfold loaded
  rw [Store.setCollection_comm (appsOf_ne_usersOf database).symm,
    Store.setCollection_setCollection]

theorem loaded_setUsers (more : List Document) :
    (loaded database p apps users s).setCollection (usersOf database)
        ((s.collection (usersOf database)).indexed.adding more) =
      loaded database p apps more s :=
  Store.setCollection_setCollection _ _ _ _

end

/-! ## The phases of a seed -/

section

variable {database : Text} {p : DatabaseUser} {s : Store}

/-- What a seed does before its first app. -/
theorem indexPart_completes (huser : s.AdmitsUser database p)
    (hregularApps : (s.collection (appsOf database)).Regular)
    (hregularUsers : (s.collection (usersOf database)).Regular)
    (happs : (s.collection (appsOf database)).TakesIndex)
    (husers : (s.collection (usersOf database)).TakesIndex) :
    Completes Store.server (userPart database p ++ indexings database Layout.declaredIndexes) s
      (loaded database p [] [] s) := by
  have hfirst := indexing_completes (s := s.withAccount database p)
    (happs.createIndex hregularApps.integerIds)
  have hsecond := indexing_completes
    (s := (s.withAccount database p).setCollection (appsOf database)
      (s.collection (appsOf database)).indexed)
    (by rw [users_setApps]; exact husers.createIndex hregularUsers.integerIds)
  have hboth := (userPart_completes huser).append (hfirst.append hsecond)
  rw [← Collection.adding_nil (s.collection (appsOf database)).indexed,
    ← Collection.adding_nil (s.collection (usersOf database)).indexed] at hboth
  exact hboth

end

section

variable {ι : Type} {element : ι → Value} {id : ι → Int} {document : ι → Document}
  {place : Place} {c : Collection} {t : Store}

/-- A list that is admitted is inserted into a collection that has just got its
index. -/
theorem listPart_completes {xs : List ι} (hc : t.collection place = c.indexed.adding [])
    (hregular : c.Regular) (hstored : ∀ x ∈ xs, StoredAs (element x) (id x) (document x))
    (hadmits : c.Admits (xs.map id)) :
    Completes Store.server (listPart place (xs.map element)) t
      (t.setCollection place (c.indexed.adding (xs.map document))) := by
  have hinsert := insertions_complete place (s := t) hstored
    (by rw [hc]; exact hregular.indexed.onlyUniqueId)
    (by rw [hc]; exact hregular.indexed.integerIds)
    (by rw [hc]; exact hadmits.indexed)
  rw [hc, Collection.adding_nil] at hinsert
  rw [listPart, List.map_map]
  exact hinsert.append (Completes.record _ _)

/-- A list with an identifier that is taken is inserted up to there. -/
theorem listPart_stops {before after : List ι} {x : ι}
    (hc : t.collection place = c.indexed.adding []) (hregular : c.Regular)
    (hstored : ∀ y ∈ before ++ x :: after, StoredAs (element y) (id y) (document y))
    (hbefore : c.Admits (before.map id))
    (htaken : some (id x) ∈ c.identifiers ∨ id x ∈ before.map id) :
    Stops Store.server (listPart place ((before ++ x :: after).map element)) t
      (identifierTaken place (id x) (document x))
      (t.setCollection place (c.indexed.adding (before.map document))) := by
  have hinsert := insertions_stop place (s := t) hstored
    (by rw [hc]; exact hregular.indexed.onlyUniqueId)
    (by rw [hc, Collection.adding_nil]; exact c.uniqueId_mem_indexed)
    (by rw [hc]; exact hregular.indexed.integerIds)
    (by rw [hc]; exact hbefore.indexed)
    (by rw [hc, Collection.identifiers_indexed]; exact htaken)
  rw [hc, Collection.adding_nil] at hinsert
  rw [listPart, List.map_map]
  exact hinsert.append _

end

/-! ## The table -/

section

variable {database : Text} {p : DatabaseUser} {apps : List App} {users : List User} {s : Store}

/-- What a seed does before its first user. -/
theorem appsPart_completes (huser : s.AdmitsUser database p)
    (hregularApps : (s.collection (appsOf database)).Regular)
    (hregularUsers : (s.collection (usersOf database)).Regular)
    (happs : (s.collection (appsOf database)).TakesIndex)
    (husers : (s.collection (usersOf database)).TakesIndex)
    (hencodable : ∀ a ∈ apps, a.Encodable)
    (hadmits : (s.collection (appsOf database)).Admits (apps.map App.id)) :
    Completes Store.server
      ((userPart database p ++ indexings database Layout.declaredIndexes) ++
        listPart (appsOf database) (apps.map App.toValue))
      s (loaded database p (apps.map App.document) [] s) := by
  have hindexes := indexPart_completes huser hregularApps hregularUsers happs husers
  have hlist := listPart_completes (loaded_apps database p [] [] s) hregularApps
    (fun a ha => App.storedAs (hencodable a ha)) hadmits
  rw [loaded_setApps] at hlist
  exact hindexes.append hlist

/-- Every row of the table is what a seed does. -/
theorem SeedRow.sound {clock : Clock} {result : Except Failure Summary} {t : Store}
    (hregularApps : (s.collection (appsOf database)).Regular)
    (hregularUsers : (s.collection (usersOf database)).Regular)
    (hencodableApps : ∀ a ∈ apps, a.Encodable) (hencodableUsers : ∀ u ∈ users, u.Encodable)
    (h : SeedRow database p apps users clock s result t) :
    let o := Job.outcome Store.server (seed database Layout.declaredIndexes p.toValue
      (apps.map App.toValue) (users.map User.toValue)) s clock
    o.result = result ∧ o.state = t := by
  cases h with
  | unwritten hobstacle =>
      exact seed_stops (course_stops_at_user (creation_unwritten _ hobstacle s)) clock
  | userExists hencodable huser =>
      exact seed_stops (course_stops_at_user (creation_stops hencodable huser)) clock
  | appsRefused huser happs =>
      refine seed_stops ?_ clock
      have hindex := indexing_stops (s := s.withAccount database p)
        (happs.createIndex hregularApps.integerIds)
      exact (userPart_completes huser).append_stops (hindex.append _)
  | usersRefused huser happs husers =>
      refine seed_stops ?_ clock
      have hfirst := indexing_completes (s := s.withAccount database p)
        (happs.createIndex hregularApps.integerIds)
      have hsecond := indexing_stops
        (s := (s.withAccount database p).setCollection (appsOf database)
          (s.collection (appsOf database)).indexed)
        (by rw [users_setApps]; exact husers.createIndex hregularUsers.integerIds)
      exact (userPart_completes huser).append_stops (hfirst.append_stops (hsecond.append _))
  | @appTaken before after a huser happs husers hsplit hbefore htaken =>
      refine seed_stops ?_ clock
      subst hsplit
      have hindexes := indexPart_completes huser hregularApps hregularUsers happs husers
      have hlist := listPart_stops (loaded_apps database p [] [] s) hregularApps
        (fun a ha => App.storedAs (hencodableApps a ha)) hbefore htaken
      rw [loaded_setApps] at hlist
      rw [course_parts]
      exact (hindexes.append_stops hlist).append _
  | @userTaken before after u huser happs husers hadmits hsplit hbefore htaken =>
      refine seed_stops ?_ clock
      subst hsplit
      have happsPart := appsPart_completes huser hregularApps hregularUsers happs husers
        hencodableApps hadmits
      have hlist := listPart_stops (loaded_users database p (apps.map App.document) [] s)
        hregularUsers (fun u hu => User.storedAs (hencodableUsers u hu)) hbefore htaken
      rw [loaded_setUsers] at hlist
      rw [course_parts]
      exact happsPart.append_stops hlist
  | complete huser happs husers hadmitsApps hadmitsUsers =>
      refine seed_completes ?_ clock
      have happsPart := appsPart_completes huser hregularApps hregularUsers happs husers
        hencodableApps hadmitsApps
      have hlist := listPart_completes (loaded_users database p (apps.map App.document) [] s)
        hregularUsers (fun u hu => User.storedAs (hencodableUsers u hu)) hadmitsUsers
      rw [loaded_setUsers] at hlist
      rw [course_parts]
      exact happsPart.append hlist

/-- Some row of the table applies. -/
theorem exists_seedRow (database : Text) (p : DatabaseUser) (apps : List App) (users : List User)
    (clock : Clock) (s : Store) :
    ∃ result t, SeedRow database p apps users clock s result t := by
  rcases unwritten_or_present_or_admitted database p s with
    ⟨problem, hobstacle⟩ | ⟨hencodable, htaken⟩ | huser
  · exact ⟨_, _, .unwritten hobstacle⟩
  · exact ⟨_, _, .userExists hencodable htaken⟩
  · rcases (s.collection (appsOf database)).takesIndex_or_refusesIndex with happs | ⟨f, happs⟩
    · rcases (s.collection (usersOf database)).takesIndex_or_refusesIndex with
        husers | ⟨f, husers⟩
      · rcases Collection.admits_or_first_taken App.id (s.collection (appsOf database)) apps with
          hadmits | ⟨before, a, after, hsplit, hbefore, htaken⟩
        · rcases Collection.admits_or_first_taken User.id (s.collection (usersOf database))
              users with hadmitsUsers | ⟨before, u, after, hsplit, hbefore, htaken⟩
          · exact ⟨_, _, .complete huser happs husers hadmits hadmitsUsers⟩
          · exact ⟨_, _, .userTaken huser happs husers hadmits hsplit hbefore htaken⟩
        · exact ⟨_, _, .appTaken huser happs husers hsplit hbefore htaken⟩
      · exact ⟨_, _, .usersRefused huser happs husers⟩
    · exact ⟨_, _, .appsRefused huser happs⟩

/-- **The decision table of a seed.**  In a store whose apps and users have
integer identifiers or none, and no unique index but the declared ones, a seed
of entities that can be stored ends as a row of the table says, and no row says
anything else. -/
theorem seedRow_iff_outcome (clock : Clock)
    (hregularApps : (s.collection (appsOf database)).Regular)
    (hregularUsers : (s.collection (usersOf database)).Regular)
    (hencodableApps : ∀ a ∈ apps, a.Encodable) (hencodableUsers : ∀ u ∈ users, u.Encodable)
    (result : Except Failure Summary) (t : Store) :
    SeedRow database p apps users clock s result t ↔
      (Job.outcome Store.server (seed database Layout.declaredIndexes p.toValue
        (apps.map App.toValue) (users.map User.toValue)) s clock).result = result ∧
      (Job.outcome Store.server (seed database Layout.declaredIndexes p.toValue
        (apps.map App.toValue) (users.map User.toValue)) s clock).state = t := by
  constructor
  · intro hrow
    exact hrow.sound hregularApps hregularUsers hencodableApps hencodableUsers
  · rintro ⟨rfl, rfl⟩
    obtain ⟨result, t, hrow⟩ := exists_seedRow database p apps users clock s
    obtain ⟨hresult, hstate⟩ := hrow.sound hregularApps hregularUsers hencodableApps
      hencodableUsers
    rw [hresult, hstate]
    exact hrow

end

/-- The principal of the examples. -/
def loader : DatabaseUser := ⟨"loader", "secret", [⟨"readWrite", "appstore"⟩]⟩

theorem loader_encodable : loader.Encodable := by
  refine ⟨by decide, by decide, ?_⟩
  intro g hg
  rw [List.mem_singleton.mp hg]
  exact ⟨by decide, by decide⟩

/-- Apps with a document that has no identifier and one with identifier 1. -/
def legacyApps : Collection :=
  ⟨[[("name", .text "legacy")], [("id", .int 1), ("name", .text "older")]], []⟩

/-- Beside the older app with identifier 1 a seed of the apps 2 and 1 adds the
first one and ends at the second. -/
theorem seedRow_appTaken_legacyApps :
    let s := Store.empty.setCollection (appsOf "appstore") legacyApps
    let o := Job.outcome Store.server (seed "appstore" Layout.declaredIndexes loader.toValue
      ([⟨2, "Arnold's App", 3, []⟩, ⟨1, "First App", 1, []⟩].map App.toValue)
      ([⟨1, "Arnold", some 72, "John Connor"⟩].map User.toValue)) s [0]
    o.result = .error
        (identifierTaken (appsOf "appstore") 1 (App.document ⟨1, "First App", 1, []⟩)) ∧
      o.state = loaded "appstore" loader [App.document ⟨2, "Arnold's App", 3, []⟩] [] s := by
  intro s o
  have happs : s.collection (appsOf "appstore") = legacyApps :=
    Store.collection_setCollection_self _ _ _
  have husers : s.collection (usersOf "appstore") = Collection.empty := users_setApps _ _ _
  have hids : legacyApps.identifiers = [none, some 1] := by decide
  have hinteger : legacyApps.IntegerIds := by
    intro doc hdoc
    simp only [legacyApps, List.mem_cons, List.not_mem_nil, or_false] at hdoc
    rcases hdoc with rfl | rfl
    · exact Or.inl rfl
    · exact Or.inr ⟨1, rfl⟩
  have hrow : SeedRow "appstore" loader [⟨2, "Arnold's App", 3, []⟩, ⟨1, "First App", 1, []⟩]
      [⟨1, "Arnold", some 72, "John Connor"⟩] [0] s
      (.error (identifierTaken (appsOf "appstore") 1 (App.document ⟨1, "First App", 1, []⟩)))
      (loaded "appstore" loader ([⟨2, "Arnold's App", 3, []⟩].map App.document) [] s) := by
    refine @SeedRow.appTaken _ _ _ _ _ _ _ [] ⟨1, "First App", 1, []⟩ ?_ ?_ ?_ ?_ ?_ ?_
    · exact ⟨loader_encodable, rfl⟩
    · rw [happs]
      exact .of_unindexed rfl (by rw [hids]; decide)
    · rw [husers]
      exact Collection.takesIndex_empty
    · rfl
    · rw [happs]
      exact ⟨by decide, by rw [hids]; decide⟩
    · rw [happs, hids]
      exact Or.inl (by decide)
  refine (seedRow_iff_outcome [0] ?_ ?_ ?_ ?_ _ _).mp hrow
  · rw [happs]
    exact .of_unindexed rfl hinteger
  · rw [husers]
    exact Collection.regular_empty
  · intro a ha
    simp only [List.mem_cons, List.not_mem_nil, or_false] at ha
    rcases ha with rfl | rfl <;> exact ⟨by decide, by decide, by decide, by simp⟩
  · intro u hu
    simp only [List.mem_cons, List.not_mem_nil, or_false] at hu
    subst hu
    exact ⟨by decide, by decide, by decide, by decide⟩

/-- Apps with nothing but an index of the declared name that admits an
identifier many times. -/
def plainlyIndexedApps : Collection := ⟨[], [⟨"id_1", [⟨"id", .int 1⟩], false, false, []⟩]⟩

/-- An index that is not unique, but has the name of the declared one, ends a
seed against which nothing else stands: no database user, no repeated
identifier, no identifier that is taken. -/
theorem plainIndex_refuses_seed :
    let s := Store.empty.setCollection (appsOf "appstore") plainlyIndexedApps
    (s.collection (appsOf "appstore")).Regular ∧ (s.collection (usersOf "appstore")).Regular ∧
      App.Encodable ⟨1, "A", 1, []⟩ ∧ s.AdmitsUser "appstore" loader ∧
      (s.collection (appsOf "appstore")).identifiers.Nodup ∧
      (s.collection (usersOf "appstore")).identifiers.Nodup ∧
      (s.collection (appsOf "appstore")).Admits [1] ∧
      (Job.outcome Store.server (seed "appstore" Layout.declaredIndexes loader.toValue
        ([⟨1, "A", 1, []⟩].map App.toValue) ([].map User.toValue)) s [0]).result =
          .error Collection.nameTaken := by
  intro s
  have happs : s.collection (appsOf "appstore") = plainlyIndexedApps :=
    Store.collection_setCollection_self _ _ _
  have husers : s.collection (usersOf "appstore") = Collection.empty := users_setApps _ _ _
  have hregularApps : (s.collection (appsOf "appstore")).Regular := by
    rw [happs]
    refine ⟨.of_no_documents rfl, ?_⟩
    intro index hmem hunique
    simp only [plainlyIndexedApps, List.mem_singleton] at hmem
    subst hmem
    cases hunique
  have hregularUsers : (s.collection (usersOf "appstore")).Regular := by
    rw [husers]
    exact Collection.regular_empty
  have hencodable : App.Encodable ⟨1, "A", 1, []⟩ := ⟨by decide, by decide, by decide, by simp⟩
  have hrow : SeedRow "appstore" loader [⟨1, "A", 1, []⟩] [] [0] s (.error Collection.nameTaken)
      (s.withAccount "appstore" loader) := by
    refine .appsRefused ⟨loader_encodable, rfl⟩ ?_
    rw [happs]
    exact .taken ⟨⟨"id_1", [⟨"id", .int 1⟩], false, false, []⟩, by decide, by decide⟩
  refine ⟨hregularApps, hregularUsers, hencodable, ⟨loader_encodable, rfl⟩, ?_, ?_, ?_, ?_⟩
  · rw [happs]
    exact List.nodup_nil
  · rw [husers]
    exact List.nodup_nil
  · rw [happs]
    exact ⟨by decide, by decide⟩
  · refine (hrow.sound hregularApps hregularUsers ?_ ?_).1
    · intro a ha
      rw [List.mem_singleton.mp ha]
      exact hencodable
    · intro u hu
      cases hu

end Seeding

end InitialLoad
