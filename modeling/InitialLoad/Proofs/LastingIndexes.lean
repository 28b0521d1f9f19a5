import InitialLoad.Proofs.SecondSeed

/-!
# The declared indexes last

Once the declared indexes have been created, they stay: whatever operations on
validated entities follow, each identifier is there at most once, and creating
the indexes again changes nothing.  Over documents that repeat an identifier the
indexes cannot be created in the first place, and the attempt changes no
document.

The first part rests on `Seeded`, which every call keeps.  The second one needs
nothing of the identifiers but that two of them are the same.
-/

namespace InitialLoad

/-- Both documents have the same identifier, or neither has any. -/
def SameIdentifier (doc other : Document) : Prop :=
  Entries.get? "id" doc = none ∧ Entries.get? "id" other = none ∨
    ∃ v w, Entries.get? "id" doc = some v ∧ Entries.get? "id" other = some w ∧ w.same v = true

namespace Collection

open Index (uniqueId)

/-- Some document has the same identifier as an earlier one. -/
def RepeatsIdentifier (c : Collection) : Prop :=
  ∃ before doc between other after,
    c.documents = before ++ doc :: (between ++ other :: after) ∧ SameIdentifier doc other

/-- Where an index that admits each key once was created, no key is repeated. -/
theorem firstRepeated?_of_createIndex {index : Index} {c d : Collection}
    (hunique : index.unique = true) (h : c.createIndex index = .ok d) :
    firstRepeated? [] (c.listedKeys index) = none := by
  simp only [createIndex, hunique, if_true] at h
  split at h
  · cases h
  · split at h
    · cases h
    · assumption

/-- Over a repeated identifier the declared index is not created. -/
theorem RepeatsIdentifier.createIndex_ne {c : Collection} (h : c.RepeatsIdentifier)
    (d : Collection) : c.createIndex uniqueId ≠ .ok d := by
  intro hcreate
  obtain ⟨before, doc, between, other, after, hdocuments, hsame⟩ := h
  have hpairs := ((firstRepeated?_eq_none_iff [] _).mp
    (firstRepeated?_of_createIndex rfl hcreate)).1
  rw [listedKeys_uniqueId, hdocuments, List.pairwise_map, List.pairwise_append] at hpairs
  have hpair := List.rel_of_pairwise_cons hpairs.2.1
    (List.mem_append_right between List.mem_cons_self)
  rcases hsame with ⟨hdoc, hother⟩ | ⟨v, w, hdoc, hother, hvw⟩
  · simp [hdoc, hother, Value.sameItems] at hpair
  · simp [hdoc, hother, Value.sameItems, hvw] at hpair

end Collection

namespace Seeding

variable {σ : Type} {server : Server σ} {held : σ → Store} {database : Text}

/-- A seeded database stays seeded over a history of operations on validated
entities, whichever of them succeed. -/
theorem Seeded.after {apps : List App} {users : List User} {s : σ}
    (h : Seeded database apps users (held s)) (fallible : Fallible server held)
    {steps : List Step} (hsteps : ∀ step ∈ steps, step.operation.Validated) :
    Seeded database apps users (held (after server steps s)) :=
  after_preserves (fun s => Seeded database apps users (held s))
    (fallible.preserves fun _ _ hq hs => hs.answer hq)
    (fun step hstep => (hsteps step hstep).orderly step.database) h

/-- What comes of creating the indexes of a table is what comes of its course. -/
theorem ensureIndexes_outcome (server : Server σ) (database : Text) (table : IndexTable) (s : σ)
    (c : Clock) :
    Job.outcome server (ensureIndexes database table) s c =
      (perform server (indexings database table) s).outcome () c :=
  (ensureIndexes_enacts database table).follows σ server s c

/-- The indexes of a table were created exactly when their course was completed. -/
theorem ensureIndexes_ok_iff {table : IndexTable} {s : σ} {c : Clock} :
    let o := Job.outcome server (ensureIndexes database table) s c
    o.result = .ok () ↔ Completes server (indexings database table) s o.state := by
  intro o
  have ho : o = (perform server (indexings database table) s).outcome () c :=
    ensureIndexes_outcome server database table s c
  rw [ho]
  unfold Completes Progress.outcome
  cases (perform server (indexings database table) s).failure <;> simp

/-- Creating indexes changes no document, whether or not it succeeds. -/
theorem ensureIndexes_documents (fallible : Fallible server held) (table : IndexTable) (s : σ)
    (c : Clock) (place : Place) :
    ((held (Job.outcome server (ensureIndexes database table) s c).state).collection
      place).documents = ((held s).collection place).documents := by
  have hsends : Job.Sends (fun q => ∀ place doc, q ≠ .insertOne place doc)
      (ensureIndexes database table) := ensureIndexes_sends (by simp) database table
  let unchanged : Store → Prop := fun t =>
    (t.collection place).documents = ((held s).collection place).documents
  have hstep : ∀ q t, (∀ place doc, q ≠ .insertOne place doc) → unchanged t →
      unchanged (Store.answer q t).2 := by
    intro q t hq ht
    exact (Store.documents_answer_of_ne hq t place).trans ht
  exact hsends.preserves (fallible.preserves hstep) (show unchanged (held s) from rfl) c

/-- Over a repeated identifier of an app or of a user the declared indexes are
not completed. -/
theorem not_completes_of_repeated {s t : Store}
    (hrepeat : (s.collection (appsOf database)).RepeatsIdentifier ∨
      (s.collection (usersOf database)).RepeatsIdentifier) :
    ¬ Completes Store.server (indexings database Layout.declaredIndexes) s t := by
  intro h
  have hboth : Completes Store.server ([indexing (appsOf database) Layout.uniqueId] ++
      [indexing (usersOf database) Layout.uniqueId]) s t := h
  obtain ⟨next, hfirst, hsecond⟩ := completes_append_iff.mp hboth
  rcases hrepeat with hrepeat | hrepeat
  · exact hrepeat.createIndex_ne _ (createIndex_of_indexing hfirst)
  · have hdocuments := hfirst.preserves
      (fun u => (u.collection (usersOf database)).documents =
        (s.collection (usersOf database)).documents) ?_ rfl
    · refine Collection.RepeatsIdentifier.createIndex_ne ?_ _ (createIndex_of_indexing hsecond)
      unfold Collection.RepeatsIdentifier at hrepeat ⊢
      rwa [hdocuments]
    · intro q hq u hu
      simp only [indexing_uniqueId, Stage.requests_cons_attempt, Stage.requests_nil,
        List.mem_singleton, Except.ok.injEq] at hq
      subst hq
      exact (Store.documents_answer_of_ne (by simp) u _).trans hu

/-- **The declared indexes last.**  Take a server that may fail at any call.
When the declared indexes have been created over apps and users with integer
identifiers or none, then after any operations on validated entities both are
still there, no two documents of apps and no two of users have the same
identifier, and creating the indexes again succeeds and changes nothing.  When
apps or users have two documents with the same identifier, or two without, the
indexes are refused and every document stays as it was. -/
theorem declaredIndexes_last (fallible : Fallible server held) (database : Text) (s : σ)
    (clock : Clock) :
    let o := Job.outcome server (ensureIndexes database Layout.declaredIndexes) s clock
    (((held s).collection (appsOf database)).IntegerIds →
      ((held s).collection (usersOf database)).IntegerIds → o.result = .ok () →
      ∀ later : List Step, (∀ step ∈ later, step.operation.Validated) →
        let t := held (after server later o.state)
        (Index.uniqueId ∈ (t.collection (appsOf database)).indexes ∧
          Index.uniqueId ∈ (t.collection (usersOf database)).indexes) ∧
        ((t.collection (appsOf database)).identifiers.Nodup ∧
          (t.collection (usersOf database)).identifiers.Nodup) ∧
        ∀ again : Clock,
          let r := Job.outcome Store.server (ensureIndexes database Layout.declaredIndexes) t again
          r.result = .ok () ∧ r.state = t) ∧
    (((held s).collection (appsOf database)).RepeatsIdentifier ∨
        ((held s).collection (usersOf database)).RepeatsIdentifier →
      (∃ f, o.result = .error f) ∧
        ∀ place, ((held o.state).collection place).documents =
          ((held s).collection place).documents) := by
  intro o
  refine ⟨?_, ?_⟩
  · intro happs husers hcreated later hlater t
    have hseeded : Seeded database [] [] (held o.state) :=
      seeded_of_indexings happs husers (fallible.completes (ensureIndexes_ok_iff.mp hcreated))
    have hstill : Seeded database [] [] t := hseeded.after fallible hlater
    refine ⟨⟨hstill.guardedApps.mem, hstill.guardedUsers.mem⟩,
      ⟨hstill.guardedApps.distinct, hstill.guardedUsers.distinct⟩, ?_⟩
    intro again r
    have hagain := indexings_again hstill
    have hr : r = (perform Store.server (indexings database Layout.declaredIndexes) t).outcome
        () again := ensureIndexes_outcome Store.server database Layout.declaredIndexes t again
    rw [hr]
    unfold Progress.outcome
    rw [hagain.1]
    exact ⟨rfl, hagain.2⟩
  · intro hrepeat
    refine ⟨?_, ensureIndexes_documents fallible _ s clock⟩
    cases hresult : o.result with
    | error f => exact ⟨f, rfl⟩
    | ok created =>
        have hcompletes := fallible.completes (ensureIndexes_ok_iff.mp hresult)
        exact absurd hcompletes (not_completes_of_repeated hrepeat)

/-- Apps with a document that has no identifier get the indexes.  A batch that
loses its connection at the second app and one that repeats an app change
nothing about that.  Apps with two documents without identifiers never get them. -/
theorem declaredIndexes_last_legacyApp :
    let server := Disturbance.server Store.server
    let plain : List Disturbance × Store := ([⟨.insertOne, 1, Failure.of (.troubled .reconnect "lost")⟩],
      Store.empty.setCollection (appsOf "appstore") ⟨[[("name", .text "legacy")]], []⟩)
    let twice : List Disturbance × Store := ([],
      Store.empty.setCollection (appsOf "appstore")
        ⟨[[("name", .text "legacy")], [("name", .text "older")]], []⟩)
    let batch : Step := ⟨"appstore", .insertApps [App.toValue ⟨1, "First App", 1, []⟩,
      App.toValue ⟨2, "Second App", 2, []⟩, App.toValue ⟨1, "First App", 1, []⟩], [0]⟩
    let t := (after server [batch, batch]
      (Job.outcome server (ensureIndexes "appstore" Layout.declaredIndexes) plain [0]).state).2
    (t.collection (appsOf "appstore")).identifiers = [none, some 1] ∧
      (Job.outcome Store.server (ensureIndexes "appstore" Layout.declaredIndexes) t [0]).state = t ∧
      ∃ f, (Job.outcome server (ensureIndexes "appstore" Layout.declaredIndexes) twice [0]).result =
        .error f := by
  intro server plain twice batch t
  have happs : (plain.2.collection (appsOf "appstore")).IntegerIds := by
    intro doc hdoc
    rw [List.mem_singleton.mp hdoc]
    exact Or.inl rfl
  have husers : (plain.2.collection (usersOf "appstore")).IntegerIds := .of_no_documents rfl
  have hvalidated : ∀ step ∈ [batch, batch], step.operation.Validated := by
    intro step hstep element helement
    obtain rfl : step = batch := by simpa using hstep
    simp only [batch, Operation.elements, List.mem_cons, List.not_mem_nil, or_false] at helement
    rcases helement with rfl | rfl | rfl <;> exact .app _
  have hcreated : (Job.outcome server (ensureIndexes "appstore" Layout.declaredIndexes) plain
      [0]).result = .ok () := ensureIndexes_ok_iff.mpr ⟨by decide +kernel, rfl⟩
  have hlast := (declaredIndexes_last Fallible.store.disturbed "appstore" plain [0]).1 happs husers
    hcreated [batch, batch] hvalidated
  have hrefused := (declaredIndexes_last Fallible.store.disturbed "appstore" twice [0]).2
    (Or.inl ⟨[], _, [], _, [], rfl, Or.inl ⟨rfl, rfl⟩⟩)
  exact ⟨by decide +kernel, (hlast.2.2 [0]).2, hrefused.1⟩

end Seeding

end InitialLoad
