import InitialLoad.Proofs.Actions
import InitialLoad.Proofs.Fallible
import InitialLoad.Proofs.Stores

/-!
# A list is inserted up to the first failure

The elements of a list may be anything: entities, entities that were changed afterwards,
or values without a document.  They are values, which nothing changes, and they are
inserted one by one.  The first element that has no document, or whose document is
refused, ends the insertion; what comes after it plays no part, and the documents before
it stay.

`Inserted` says that all elements of a list were inserted, and `Fails` in which way an
element is not.  Every list is inserted as a whole or has a first element that fails
(`inserted_or_fails`), and in both cases `perform_inserted` and `perform_fails` give
everything that happens.  What an accepted insertion does to the store is `Store.Extends`.
-/

namespace InitialLoad

variable {σ : Type}

@[simp] theorem Event.calls_map_call (requests : List Request) :
    calls (requests.map .call) = requests := by
  induction requests with
  | nil => rfl
  | cons q rest ih => exact congrArg (q :: ·) ih

/-! ## What insertions do to the store -/

/-- The store `t` is the store `s` with documents added at the end of one collection. -/
structure Store.Extends (place : Place) (docs : List Document) (s t : Store) : Prop where
  accounts : t.accounts = s.accounts
  others : ∀ other, other ≠ place → t.collection other = s.collection other
  indexes : (t.collection place).indexes = (s.collection place).indexes
  documents : (t.collection place).documents = (s.collection place).documents ++ docs

namespace Store

variable {place : Place} {s t u : Store}

theorem Extends.refl (place : Place) (s : Store) : Extends place [] s s :=
  ⟨rfl, fun _ _ => rfl, rfl, (List.append_nil _).symm⟩

theorem Extends.trans {docs more : List Document} (hst : Extends place docs s t)
    (htu : Extends place more t u) : Extends place (docs ++ more) s u where
  accounts := htu.accounts.trans hst.accounts
  others := fun other hother => (htu.others other hother).trans (hst.others other hother)
  indexes := htu.indexes.trans hst.indexes
  documents := by rw [htu.documents, hst.documents, List.append_assoc]

/-- A document that the store accepts is added as it is stored. -/
theorem extends_of_accepted {doc : Document} {a : Unit}
    (h : Store.server.answer (.insertOne place doc) s = (.ok a, t)) :
    Extends place [Value.storedEntries doc] s t := by
  obtain ⟨c, hinsert, rfl⟩ := insert_of_accepted h
  have hadded := (Collection.insert_ok hinsert).2
  refine ⟨rfl, ?_, ?_, ?_⟩
  · intro other hother
    exact collection_setCollection_of_ne hother c s
  · rw [collection_setCollection_self, hadded]
    rfl
  · rw [collection_setCollection_self, hadded]
    rfl

end Store

namespace Seeding

/-- The calls that insert documents. -/
def insertCalls (place : Place) (docs : List Document) : List Request := docs.map (.insertOne place)

/-- Documents that a truthful server accepts are added, and nothing else changes. -/
theorem extends_of_accepts {server : Server σ} {held : σ → Store} (truthful : Truthful server held)
    {place : Place} {docs : List Document} {s t : σ}
    (h : Accepts server s (insertCalls place docs) t) :
    Store.Extends place (docs.map Value.storedEntries) (held s) (held t) := by
  induction docs generalizing s with
  | nil =>
      cases h
      exact .refl place _
  | cons doc rest ih =>
      cases h with
      | cons head tail =>
          have hfirst := Store.extends_of_accepted (truthful.carriedOut head)
          exact hfirst.trans (ih tail)

/-! ## Elements that are inserted, and elements that are not -/

section

variable (server : Server σ) (place : Place)

/-- All elements have a document, and the server accepts the documents one after the
other. -/
structure Inserted (elements : List Value) (docs : List Document) (s t : σ) : Prop where
  documents : elements.map Value.toDocument = docs.map .ok
  accepted : Accepts server s (insertCalls place docs) t

/-- The element is not inserted: it has no document, and there is no call; or its
document is refused, which is reported in the words of the collection. -/
inductive Fails (x : Value) (s : σ) : Failure → List Request → σ → Prop
  | noDocument {f : Failure} (h : x.toDocument = .error f) : Fails x s f [] s
  | refused {doc : Document} {f : Failure} {t : σ} (h : x.toDocument = .ok doc)
      (hrefused : server.answer (.insertOne place doc) s = (.error f, t)) :
      Fails x s (whenInsertRefused place.collection x f) [.insertOne place doc] t

end

variable {server : Server σ} {place : Place} {elements : List Value} {docs : List Document}
  {x : Value} {s t u : σ} {f : Failure} {calls : List Request}

theorem Inserted.nil (s : σ) : Inserted server place [] [] s s := ⟨rfl, .nil s⟩

theorem Inserted.cons {doc : Document} {a : Unit} (hdoc : x.toDocument = .ok doc)
    (hanswer : server.answer (.insertOne place doc) s = (.ok a, t))
    (hrest : Inserted server place elements docs t u) :
    Inserted server place (x :: elements) (doc :: docs) s u :=
  ⟨by rw [List.map_cons, List.map_cons, hdoc, hrest.documents], .cons hanswer hrest.accepted⟩

theorem Inserted.append {more : List Value} {moreDocs : List Document}
    (hfirst : Inserted server place elements docs s t)
    (hmore : Inserted server place more moreDocs t u) :
    Inserted server place (elements ++ more) (docs ++ moreDocs) s u where
  documents := by rw [List.map_append, List.map_append, hfirst.documents, hmore.documents]
  accepted := by
    rw [insertCalls, List.map_append]
    exact hfirst.accepted.append hmore.accepted

theorem Inserted.length_eq (h : Inserted server place elements docs s t) :
    docs.length = elements.length := by
  have hlength := congrArg List.length h.documents
  simpa using hlength.symm

/-- **A list is inserted as a whole, or there is a first element that fails.** -/
theorem inserted_or_fails (server : Server σ) (place : Place) (elements : List Value) (s : σ) :
    (∃ docs t, Inserted server place elements docs s t) ∨
      ∃ before x after docs t f calls u, elements = before ++ x :: after ∧
        Inserted server place before docs s t ∧ Fails server place x t f calls u := by
  induction elements generalizing s with
  | nil => exact Or.inl ⟨[], s, .nil s⟩
  | cons x rest ih =>
      cases hdoc : x.toDocument with
      | error f =>
          exact Or.inr ⟨[], x, rest, [], s, f, [], s, rfl, .nil s, .noDocument hdoc⟩
      | ok doc =>
          rcases hanswer : server.answer (.insertOne place doc) s with ⟨f | a, t⟩
          · exact Or.inr ⟨[], x, rest, [], s, _, _, t, rfl, .nil s, .refused hdoc hanswer⟩
          · rcases ih t with ⟨docs, u, hrest⟩ |
              ⟨before, y, after, docs, u, f, calls, v, rfl, hbefore, hfails⟩
            · exact Or.inl ⟨doc :: docs, u, .cons hdoc hanswer hrest⟩
            · exact Or.inr ⟨x :: before, y, after, doc :: docs, u, f, calls, v, rfl,
                .cons hdoc hanswer hbefore, hfails⟩

/-! ## What happens -/

/-- After elements that are inserted the course goes on. -/
theorem perform_inserted (h : Inserted server place elements docs s t) (rest : List Stage) :
    perform server (elements.map (insertion place) ++ rest) s =
      (perform server rest t).afterAll ((insertCalls place docs).map .call) := by
  obtain ⟨hdocuments, haccepted⟩ := h
  induction elements generalizing docs s with
  | nil =>
      obtain rfl := List.map_eq_nil_iff.mp hdocuments.symm
      cases haccepted
      rfl
  | cons x more ih =>
      cases docs with
      | nil => cases hdocuments
      | cons doc docs =>
          obtain ⟨hdoc, hmore⟩ := List.cons.inj hdocuments
          cases haccepted with
          | cons head tail =>
              have hrest := ih hmore tail
              simp only [List.map_cons, List.cons_append, insertion_of_document hdoc, perform, head]
              rw [hrest]
              rfl

/-- At an element that fails the course ends. -/
theorem perform_fails (h : Fails server place x s f calls t) (rest : List Stage) :
    perform server (insertion place x :: rest) s = ⟨some f, calls.map .call, t⟩ := by
  cases h with
  | noDocument hdoc => simp only [insertion, insertCall, hdoc, Except.map, perform, List.map_nil]
  | refused hdoc hrefused =>
      simp only [insertion_of_document hdoc, perform, hrefused, List.map_cons, List.map_nil]

/-- All elements are inserted: their number is given, and a record is written. -/
theorem insertAll_inserted (h : Inserted server place elements docs s t) (c : Clock) :
    Job.outcome server (insertAll place elements) s c =
      ⟨.ok elements.length, (insertCalls place docs).map .call ++
        [.record (inserted place elements.length)], t, c⟩ := by
  rw [(insertAll_enacts place elements).follows, listPart, perform_inserted h]
  rfl

/-- An element fails: the elements before it are inserted, and those after it have no
part in what happens. -/
theorem insertAll_fails {before : List Value} (h : Inserted server place before docs s t)
    (hfails : Fails server place x t f calls u) (after : List Value) (c : Clock) :
    Job.outcome server (insertAll place (before ++ x :: after)) s c =
      ⟨.error f, (insertCalls place docs ++ calls).map .call, u, c⟩ := by
  rw [(insertAll_enacts place _).follows, listPart, List.map_append, List.map_cons,
    List.append_assoc, perform_inserted h, List.cons_append, perform_fails hfails]
  simp [Progress.outcome, Progress.afterAll]

/-- A truthful server that refuses does nothing. -/
theorem held_of_fails {held : σ → Store} (truthful : Truthful server held)
    (h : Fails server place x s f calls t) : held t = held s := by
  cases h with
  | noDocument => rfl
  | refused _ hrefused => exact truthful.nothingDone hrefused

/-! ## The law -/

/-- How a list of any elements is inserted at a place, against a server that holds a
store.  Up to some position all elements are inserted.  Either that is the end, and their
number is given; or the element at the position fails, which ends the insertion whatever
elements come later.  The store is the old one with the documents of the elements before
the position. -/
structure InsertsInOrder (server : Server σ) (held : σ → Store) (insert : List Value → Job Nat)
    (place : Place) : Prop where
  ends : ∀ (elements : List Value) (s : σ) (c : Clock),
    let o := Job.outcome server (insert elements) s c
    ∃ k docs t, Inserted server place (elements.take k) docs s t ∧
      Store.Extends place (docs.map Value.storedEntries) (held s) (held o.state) ∧
      (k = elements.length ∧ o.result = .ok k ∧
          Event.calls o.events = insertCalls place docs ∧ o.state = t ∨
        ∃ x f calls, elements[k]? = some x ∧ Fails server place x t f calls o.state ∧
          o.result = .error f ∧ Event.calls o.events = insertCalls place docs ++ calls ∧
          ∀ later, Job.outcome server (insert (elements.take (k + 1) ++ later)) s c = o)
  append : ∀ (xs ys : List Value) (s : σ) (c : Clock),
    let first := Job.outcome server (insert xs) s c
    let both := Job.outcome server (insert (xs ++ ys)) s c
    (∀ f, first.result = .error f → both = first) ∧
      ∀ n, first.result = .ok n →
        let second := Job.outcome server (insert ys) first.state first.clock
        both.state = second.state ∧
          Event.calls both.events = Event.calls first.events ++ Event.calls second.events ∧
          both.result = second.result.map (n + ·)

/-- What comes of a list is what comes of its insertions; a complete list is recorded. -/
theorem insertAll_outcome (server : Server σ) (place : Place) (elements : List Value) (s : σ)
    (c : Clock) :
    let progress := perform server (elements.map (insertion place)) s
    Job.outcome server (insertAll place elements) s c =
      match progress.failure with
      | none => ⟨.ok elements.length,
          progress.events ++ [.record (inserted place elements.length)], progress.state, c⟩
      | some f => ⟨.error f, progress.events, progress.state, c⟩ := by
  intro progress
  rw [(insertAll_enacts place elements).follows, listPart, perform_append]
  cases h : progress.failure with
  | none => rfl
  | some f =>
      show Progress.outcome _ c progress = _
      rw [Progress.outcome, h]

/-- Two lists at once come to the same as one after the other. -/
theorem insertAll_append (server : Server σ) (place : Place) (xs ys : List Value) (s : σ)
    (c : Clock) :
    let first := Job.outcome server (insertAll place xs) s c
    let both := Job.outcome server (insertAll place (xs ++ ys)) s c
    (∀ f, first.result = .error f → both = first) ∧
      ∀ n, first.result = .ok n →
        let second := Job.outcome server (insertAll place ys) first.state first.clock
        both.state = second.state ∧
          Event.calls both.events = Event.calls first.events ++ Event.calls second.events ∧
          both.result = second.result.map (n + ·) := by
  -- Both lists make one course, which goes on with the second list only if the first is
  -- complete; the record after each list is no call.
  intro first both
  have hfirst : first = _ := insertAll_outcome server place xs s c
  have hboth : both = _ := insertAll_outcome server place (xs ++ ys) s c
  rw [List.map_append, perform_append] at hboth
  generalize perform server (xs.map (insertion place)) s = progress at hfirst hboth
  cases hfailure : progress.failure with
  | some f =>
      simp only [hfailure] at hfirst hboth
      refine ⟨fun _ _ => hboth.trans hfirst.symm, fun n hn => ?_⟩
      rw [hfirst] at hn
      cases hn
  | none =>
      simp only [hfailure] at hfirst hboth
      refine ⟨fun f hf => absurd (hf.symm.trans (congrArg Outcome.result hfirst)) nofun, ?_⟩
      intro n hn second
      have hlength : n = xs.length := by
        rw [hfirst] at hn
        exact (Except.ok.inj hn).symm
      have hsecond : second = _ := insertAll_outcome server place ys first.state first.clock
      rw [hfirst] at hsecond
      generalize perform server (ys.map (insertion place)) progress.state = more at hsecond hboth
      cases hmore : more.failure <;>
        simp [hfirst, hboth, hsecond, hmore, hlength, Progress.afterAll, Except.map]

/-- **The prefix law of the insertions.**  Against every server that holds a store and
does nothing when it refuses, whatever the store holds and whatever indexes it has, apps
and users are inserted in order, up to the first element that fails. -/
theorem inserts_in_order {server : Server σ} {held : σ → Store} (truthful : Truthful server held)
    (database : Text) :
    InsertsInOrder server held (insertApps database) (appsOf database) ∧
      InsertsInOrder server held (insertUsers database) (usersOf database) := by
  have hall : ∀ place, InsertsInOrder server held (insertAll place) place := by
    intro place
    refine ⟨?_, insertAll_append server place⟩
    intro elements s c o
    obtain ⟨docs, t, hinserted⟩ |
      ⟨before, x, after, docs, t, f, calls, u, rfl, hbefore, hfails⟩ :=
        inserted_or_fails server place elements s
    · have ho : o = _ := insertAll_inserted hinserted c
      refine ⟨elements.length, docs, t, by rwa [List.take_length], ?_, Or.inl ?_⟩
      · rw [ho]
        exact extends_of_accepts truthful hinserted.accepted
      · rw [ho]
        exact ⟨rfl, rfl, by simp, rfl⟩
    · have ho : o = _ := insertAll_fails hbefore hfails after c
      have hbefore' : (before ++ x :: after).take before.length = before := by simp
      refine ⟨before.length, docs, t, by rwa [hbefore'], ?_, Or.inr ?_⟩
      · rw [ho]
        show Store.Extends _ _ _ (held u)
        rw [held_of_fails truthful hfails]
        exact extends_of_accepts truthful hbefore.accepted
      · refine ⟨x, f, calls, by simp, ?_, ?_, ?_, ?_⟩
        · rw [ho]
          exact hfails
        · rw [ho]
        · rw [ho]
          exact Event.calls_map_call _
        · intro later
          -- Nothing in what happened mentions the elements after `x`.
          have htake : (before ++ x :: after).take (before.length + 1) ++ later =
              before ++ x :: later := by
            simp [List.take_append, List.take_of_length_le]
          rw [htake, ho]
          exact insertAll_fails hbefore hfails later c
  exact ⟨hall _, hall _⟩

/-- Four elements for an index that admits each name once: a user, one that was changed
to an identifier that is no integer and to no friend, one with the name of the first, and
a number.  Two of them are inserted, and what comes after the third has no part in it. -/
theorem inserts_in_order_repeated_name :
    let byName : Index := ⟨"name_1", [⟨"name", .int 1⟩], true, false, []⟩
    let s := Store.empty.setCollection (usersOf "db") ⟨[], [byName]⟩
    let elements : List Value := [User.toValue ⟨1, "Ada", none, "Bob"⟩,
      .record .user [("id", .text "x"), ("name", .text "Bob"), ("age", .null), ("friend", .null)],
      User.toValue ⟨3, "Ada", some 30, "Bob"⟩, .int 7]
    let o := Job.outcome Store.server (insertUsers "db" elements) s []
    ∃ docs : List Document, docs.length = 2 ∧
      Store.Extends (usersOf "db") (docs.map Value.storedEntries) s o.state ∧
      (∃ f, o.result = .error f) ∧
      ∀ later, Job.outcome Store.server (insertUsers "db" (elements.take 3 ++ later)) s [] = o := by
  intro byName s elements o
  obtain ⟨k, docs, t, hinserted, hextends, hend⟩ :=
    (inserts_in_order .store "db").2.ends elements s []
  have htwo : (o.state.collection (usersOf "db")).documents.length = 2 := by decide +kernel
  have hdocs : docs.length = 2 := by
    have hlength : (o.state.collection (usersOf "db")).documents.length = _ :=
      congrArg List.length hextends.documents
    rw [htwo, List.length_append, List.length_map] at hlength
    simpa [s] using hlength.symm
  have hk : k = 2 := by
    have htake := hinserted.length_eq
    have hfour : elements.length = 4 := rfl
    rw [List.length_take, hdocs, hfour] at htake
    omega
  subst hk
  refine ⟨docs, hdocs, hextends, ?_⟩
  rcases hend with ⟨hwhole, -⟩ | ⟨x, f, calls, -, -, hresult, -, hlater⟩
  · exact absurd hwhole (show ¬ 2 = 4 by decide)
  · exact ⟨⟨f, hresult⟩, hlater⟩

end Seeding

end InitialLoad
