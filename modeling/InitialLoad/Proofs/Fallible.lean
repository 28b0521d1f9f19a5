import InitialLoad.Proofs.Course
import InitialLoad.Proofs.Identifiers
import InitialLoad.Server.Disturbance

/-!
# Fallible servers

A server can fail for reasons of its own, and a failure need not say whether the
call was carried out.  A `Fallible` server does what the store does, as a whole
or not at all, and may report a failure in either case.  What it reports as
accepted has been carried out, so a course that completes against it completes
against the store.

What every call of the store keeps is therefore kept by such a server.  There
are two such things for a collection: its documents stay, in their order, and
its declared index stays in force while only documents with integer identifiers
are inserted.

A `Truthful` server also says which of the two it was: a call that it refuses has
done nothing.  The calls that such a server accepts in a run tell exactly which
documents were added.
-/

namespace InitialLoad

variable {σ : Type}

/-- The server does what the store does on what it holds, or nothing; a call
that it accepts has been carried out. -/
structure Fallible (server : Server σ) (held : σ → Store) : Prop where
  carriedOut : ∀ {q : Request} {a : q.Answer} {s t : σ}, server.answer q s = (.ok a, t) →
    Store.server.answer q (held s) = (.ok a, held t)
  wholeOrNothing : ∀ (q : Request) (s : σ), held (server.answer q s).2 = held s ∨
    held (server.answer q s).2 = (Store.server.answer q (held s)).2

namespace Fallible

/-- The store never fails for reasons of its own. -/
theorem store : Fallible Store.server id where
  carriedOut := by
    intro q a s t h
    exact h
  wholeOrNothing := fun _ _ => Or.inr rfl

variable {server : Server σ} {held : σ → Store}

/-- Disturbances make a server fail, but nothing that it accepts is undone. -/
theorem disturbed (fallible : Fallible server held) :
    Fallible (Disturbance.server server) fun state => held state.2 where
  carriedOut := by
    intro q a s t h
    simp only [Disturbance.server] at h
    split at h
    · cases h
    · simp only [Prod.mk.injEq] at h
      obtain ⟨hanswer, rfl⟩ := h
      exact fallible.carriedOut (Prod.ext hanswer rfl)
  wholeOrNothing := by
    intro q s
    simp only [Disturbance.server]
    split
    · exact Or.inl rfl
    · exact fallible.wholeOrNothing q s.2

/-- What every allowed call of the store keeps is kept by an allowed call. -/
theorem preserves (fallible : Fallible server held) {allowed : Request → Prop}
    {inv : Store → Prop} (step : ∀ q s, allowed q → inv s → inv (Store.answer q s).2)
    (q : Request) (s : σ) (hq : allowed q) (hs : inv (held s)) :
    inv (held (server.answer q s).2) := by
  rcases fallible.wholeOrNothing q s with hnothing | hwhole
  · rw [hnothing]
    exact hs
  · rw [hwhole]
    exact step q (held s) hq hs

/-- A course that completes against the server completes against the store. -/
theorem completes (fallible : Fallible server held) {course : List Stage} {s t : σ}
    (h : Completes server course s t) : Completes Store.server course (held s) (held t) := by
  induction course generalizing s with
  | nil =>
      obtain ⟨-, rfl⟩ := h
      exact Completes.nil (held s)
  | cons stage rest ih =>
      cases stage with
      | record r => exact ih h
      | attempt request report =>
          cases request with
          | error f => cases h.1
          | ok q =>
              rcases hanswer : server.answer q s with ⟨answer, next⟩
              simp only [Completes, perform, hanswer] at h
              cases answer with
              | error f => cases h.1
              | ok a =>
                  have hstore := fallible.carriedOut hanswer
                  simp only [Completes, perform, hstore]
                  exact ih h

end Fallible

/-! ## What a call does to a collection -/

/-- Documents that the call inserts have an integer identifier or none. -/
def Request.Orderly : Request → Prop
  | .insertOne _ doc => IntegerIdentified doc
  | _ => True

namespace Store

/-- A change of one collection leaves every collection, or is accepted there. -/
theorem settle_updateCollection (place other : Place)
    (change : Collection → Except Failure Collection) (s : Store) :
    (s.settle (s.updateCollection place change)).2.collection other = s.collection other ∨
      other = place ∧ change (s.collection place) =
        .ok ((s.settle (s.updateCollection place change)).2.collection other) := by
  unfold updateCollection
  cases hchange : change (s.collection place) with
  | error f => exact Or.inl rfl
  | ok c =>
      by_cases hother : other = place
      · subst hother
        exact Or.inr ⟨rfl, by simp [Except.map, settle, setCollection]⟩
      · exact Or.inl (by simp [Except.map, settle, setCollection, hother])

/-- What a request that was written does to a collection. -/
theorem carryOut_collection (q : Request) (s : Store) (place : Place) :
    (carryOut q s).2.collection place = s.collection place ∨
      (∃ index, (∃ keys options, q = .createIndex place keys options ∧
          Index.described? keys options = some index) ∧
        (s.collection place).createIndex index = .ok ((carryOut q s).2.collection place)) ∨
      ∃ doc, q = .insertOne place doc ∧
        (s.collection place).insert doc = .ok ((carryOut q s).2.collection place) := by
  cases q with
  | createUser database user pwd roles =>
      refine Or.inl ?_
      simp only [carryOut, createUser]
      split <;> rfl
  | createIndex other keys options =>
      rcases settle_updateCollection other place
        (Collection.createDescribed keys options) s with h | ⟨rfl, h⟩
      · exact Or.inl h
      · obtain ⟨index, hindex, hcreate⟩ := Collection.createDescribed_ok.mp h
        exact Or.inr (Or.inl ⟨index, ⟨keys, options, rfl, hindex⟩, hcreate⟩)
  | insertOne other doc =>
      rcases settle_updateCollection other place (Collection.insert doc) s with h | ⟨rfl, h⟩
      · exact Or.inl h
      · exact Or.inr (Or.inr ⟨doc, rfl, h⟩)
  | connect uri => exact Or.inl rfl
  | close => exact Or.inl rfl
  | ping => exact Or.inl rfl
  | findOne other id => exact Or.inl rfl
  | findIds other => exact Or.inl rfl

/-- **A call leaves a collection, or creates an index on it, or inserts a
document into it.** -/
theorem answer_collection (q : Request) (s : Store) (place : Place) :
    (answer q s).2.collection place = s.collection place ∨
      (∃ index, (∃ keys options, q = .createIndex place keys options ∧
          Index.described? keys options = some index) ∧
        (s.collection place).createIndex index = .ok ((answer q s).2.collection place)) ∨
      ∃ doc, q = .insertOne place doc ∧
        (s.collection place).insert doc = .ok ((answer q s).2.collection place) := by
  rcases answer_cases q s with ⟨-, hanswer⟩ | ⟨problem, -, hanswer⟩
  · rw [hanswer]
    exact carryOut_collection q s place
  · rw [hanswer]
    exact Or.inl rfl

/-- No call removes, changes or moves a document. -/
theorem documents_answer (q : Request) (s : Store) (place : Place) :
    (s.collection place).documents <+: ((answer q s).2.collection place).documents := by
  rcases answer_collection q s place with h | ⟨index, -, h⟩ | ⟨doc, -, h⟩
  · simp [h]
  · rcases Collection.createIndex_ok h with heq | heq <;> simp [heq]
  · rw [(Collection.insert_ok h).2]
    exact List.prefix_append _ _

/-- Only an insertion changes documents. -/
theorem documents_answer_of_ne {q : Request} (hq : ∀ place doc, q ≠ .insertOne place doc)
    (s : Store) (place : Place) :
    ((answer q s).2.collection place).documents = (s.collection place).documents := by
  rcases answer_collection q s place with h | ⟨index, -, h⟩ | ⟨doc, rfl, -⟩
  · rw [h]
  · rcases Collection.createIndex_ok h with heq | heq <;> rw [heq]
  · exact absurd rfl (hq place doc)

theorem integerIds_answer {q : Request} {s : Store} {place : Place} (hq : q.Orderly)
    (h : (s.collection place).IntegerIds) : ((answer q s).2.collection place).IntegerIds := by
  rcases answer_collection q s place with heq | ⟨index, -, hcreate⟩ | ⟨doc, rfl, hinsert⟩
  · rw [heq]
    exact h
  · rcases Collection.createIndex_ok hcreate with heq | heq <;> rw [heq] <;> exact h
  · rw [(Collection.insert_ok hinsert).2]
    have hstored := Collection.integerIdentified_storedEntries hq
    exact h.adding (by simpa using hstored)

theorem guarded_answer {q : Request} {s : Store} {place : Place} (hq : q.Orderly)
    (h : (s.collection place).Guarded) : ((answer q s).2.collection place).Guarded := by
  rcases answer_collection q s place with heq | ⟨index, -, hcreate⟩ | ⟨doc, rfl, hinsert⟩
  · rw [heq]
    exact h
  · exact h.createIndex hcreate
  · exact h.insert hq hinsert

/-- An identifier that is present stays present. -/
theorem identifiers_answer {n : Option Int} (q : Request) {s : Store} {place : Place}
    (h : n ∈ (s.collection place).identifiers) :
    n ∈ ((answer q s).2.collection place).identifiers :=
  ((documents_answer q s place).map identifier).subset h

end Store

/-! ## Truthful servers -/

/-- The document that a call inserts at the place, as it is stored. -/
def Request.insertion? (place : Place) : Request → Option Document
  | .insertOne other doc => if other = place then some (Value.storedEntries doc) else none
  | _ => none

/-- What the store accepts adds the document that it inserts, and no other. -/
theorem Store.documents_of_accepted {q : Request} {a : q.Answer} {s t : Store}
    (h : Store.server.answer q s = (.ok a, t)) (place : Place) :
    (t.collection place).documents =
      (s.collection place).documents ++ (q.insertion? place).toList := by
  have ht : t = (Store.answer q s).2 := (congrArg Prod.snd h).symm
  by_cases hq : ∀ other doc, q ≠ .insertOne other doc
  · have hnone : q.insertion? place = none := by
      cases q with
      | insertOne other doc => exact absurd rfl (hq other doc)
      | _ => rfl
    rw [ht, Store.documents_answer_of_ne hq, hnone]
    simp
  · simp only [Classical.not_forall, Classical.not_not] at hq
    obtain ⟨other, doc, rfl⟩ := hq
    obtain ⟨c, hinsert, hchanged⟩ := Store.insert_of_accepted h
    have hadded := (Collection.insert_ok hinsert).2
    by_cases hplace : place = other
    · subst hplace
      simp [hchanged, Store.setCollection, hadded, Request.insertion?]
    · simp [hchanged, Store.setCollection, hplace, Ne.symm hplace, Request.insertion?]

/-- The server does what the store does on what it holds when it accepts a
call, and nothing when it refuses one. -/
structure Truthful (server : Server σ) (held : σ → Store) : Prop where
  carriedOut : ∀ {q : Request} {a : q.Answer} {s t : σ}, server.answer q s = (.ok a, t) →
    Store.server.answer q (held s) = (.ok a, held t)
  nothingDone : ∀ {q : Request} {f : Failure} {s t : σ}, server.answer q s = (.error f, t) →
    held t = held s

namespace Truthful

/-- The store does nothing when it refuses a call. -/
theorem store : Truthful Store.server id where
  carriedOut := by
    intro q a s t h
    exact h
  nothingDone := by
    intro q f s t h
    have settled : ∀ e : Except Failure Store, s.settle e = (.error f, t) → t = s := by
      intro e he
      cases e <;> simp_all [Store.settle]
    rcases Store.answer_cases q s with ⟨-, hanswer⟩ | ⟨problem, -, hanswer⟩
    · have hcarried : Store.carryOut q s = (.error f, t) := hanswer.symm.trans h
      cases q with
      | createUser database user pwd roles => exact settled _ hcarried
      | createIndex place keys options => exact settled _ hcarried
      | insertOne place doc => exact settled _ hcarried
      | _ => cases hcarried
    · cases hanswer.symm.trans h
      rfl

variable {server : Server σ} {held : σ → Store}

/-- A call that meets a disturbance does nothing. -/
theorem disturbed (truthful : Truthful server held) :
    Truthful (Disturbance.server server) fun state => held state.2 where
  carriedOut := by
    intro q a s t h
    simp only [Disturbance.server] at h
    split at h
    · cases h
    · simp only [Prod.mk.injEq] at h
      obtain ⟨hanswer, rfl⟩ := h
      exact truthful.carriedOut (Prod.ext hanswer rfl)
  nothingDone := by
    intro q f s t h
    simp only [Disturbance.server] at h
    split at h
    · cases h
      rfl
    · simp only [Prod.mk.injEq] at h
      obtain ⟨hanswer, rfl⟩ := h
      exact truthful.nothingDone (Prod.ext hanswer rfl)

/-- What was accepted in a run could be written. -/
theorem written_of_accepted {α : Type} (truthful : Truthful server held) {p : Procedure α} {s : σ}
    {c : Clock} {q : Request} (hq : q ∈ p.accepted server s c) : q.obstacle? = none := by
  induction p generalizing s c with
  | done a => cases hq
  | call r next ih =>
      rcases hanswer : server.answer r s with ⟨answer, t⟩
      simp only [Procedure.accepted, hanswer] at hq
      cases answer with
      | error f => exact ih _ hq
      | ok a =>
          rcases List.mem_cons.mp hq with rfl | hlater
          · exact (Store.carriedOut_of_accepted (truthful.carriedOut hanswer)).1
          · exact ih _ hlater
  | record r next ih => exact ih hq
  | configure log next ih => exact ih hq
  | clock next ih => exact ih _ hq

/-- **The accepted insertions of a run are what it adds**, at every place, in
their order, at the end of what was there. -/
theorem documents_run {α : Type} (truthful : Truthful server held) (p : Procedure α) (s : σ)
    (c : Clock) (place : Place) :
    ((held (p.run server s c).state).collection place).documents =
      ((held s).collection place).documents ++
        (p.accepted server s c).filterMap (Request.insertion? place) := by
  induction p generalizing s c with
  | done a => simp [Procedure.run, Procedure.accepted]
  | call q next ih =>
      rcases hanswer : server.answer q s with ⟨answer, t⟩
      have hrest := ih (server.answer q s).1 (server.answer q s).2 c
      rw [hanswer] at hrest
      have hrun : ((Procedure.call q next).run server s c).state =
          ((next answer).run server t c).state := by
        simp [Procedure.run, Outcome.after, hanswer]
      rw [hrun, hrest]
      cases answer with
      | error f => simp [Procedure.accepted, hanswer, truthful.nothingDone hanswer]
      | ok a =>
          rw [Store.documents_of_accepted (truthful.carriedOut hanswer) place]
          cases hinsertion : q.insertion? place <;>
            simp [Procedure.accepted, hanswer, hinsertion]
  | record r next ih => exact ih s c
  | configure log next ih => exact ih s c
  | clock next ih => exact ih _ s _

end Truthful

end InitialLoad
