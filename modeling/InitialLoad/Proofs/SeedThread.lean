import InitialLoad.Proofs.FailFast
import InitialLoad.Proofs.Interleaving
import InitialLoad.Proofs.ReadYourWrites

/-!
# A seed as a thread

What a seed of validated entities can do in one turn, when other procedures may
have had theirs in between.  Its `calls` are fixed: three to set up, then one for
every app and every user.  `Underway` describes the thread at any time by the
calls that have been accepted, and `Underway.turn` lists what a turn can be: it
makes no call, or the next call is accepted, or the next call is refused and the
seed ends.
-/

namespace InitialLoad

open Stage (requests)

/-- A course that can form all its calls has not ended before its last stage. -/
theorem result?_enact {α : Type} (next : Procedure (Except Failure α)) {course : List Stage}
    {left : List Request} (hnext : ∀ c sent, Thread.result? ⟨next, c, sent⟩ = none)
    (h : requests course = left.map .ok) (c : Clock) (sent : List Request) :
    Thread.result? ⟨enact next course, c, sent⟩ = none := by
  cases course with
  | nil => exact hnext c sent
  | cons stage rest =>
      cases stage with
      | record r => rfl
      | attempt request report =>
          cases request with
          | error f => cases left <;> cases h
          | ok q => rfl

/-- A course takes a turn for each of its stages at most. -/
theorem within_enact {α : Type} {next : Procedure (Except Failure α)} {n : Nat}
    (h : next.Within n) (course : List Stage) : (enact next course).Within (course.length + n) := by
  induction course with
  | nil => simpa [enact] using h
  | cons stage rest ih =>
      rw [List.length_cons, Nat.add_right_comm]
      cases stage with
      | record r => exact ih
      | attempt request report =>
          cases request with
          | error f => trivial
          | ok q =>
              intro answer
              cases answer with
              | error f => trivial
              | ok a => exact ih

namespace Seeding

/-! ## The calls -/

/-- The calls of a seed before its first entity. -/
def setUp (database : Text) (p : DatabaseUser) : List Request :=
  [.createUser database (.text p.user) (.text p.pwd) p.grants,
    .createIndex (appsOf database) Layout.idKeys [("unique", .bool true)],
    .createIndex (usersOf database) Layout.idKeys [("unique", .bool true)]]

/-- The calls that insert apps. -/
def appCalls (database : Text) (apps : List App) : List Request :=
  apps.map fun a => .insertOne (appsOf database) a.document

/-- The calls that insert users. -/
def userCalls (database : Text) (users : List User) : List Request :=
  users.map fun u => .insertOne (usersOf database) u.document

/-- The calls of a seed. -/
def calls (database : Text) (p : DatabaseUser) (apps : List App) (users : List User) :
    List Request :=
  setUp database p ++ (appCalls database apps ++ userCalls database users)

/-- The course of a seed of validated entities. -/
def seedCourse (database : Text) (p : DatabaseUser) (apps : List App) (users : List User) :
    List Stage :=
  course database Layout.declaredIndexes p (apps.map App.toValue) (users.map User.toValue)

theorem requests_seedCourse (database : Text) (p : DatabaseUser) (apps : List App)
    (users : List User) :
    requests (seedCourse database p apps users) = (calls database p apps users).map .ok := by
  have happs : insertCall (appsOf database) ∘ App.toValue =
      fun a : App => .ok (.insertOne (appsOf database) a.document) := by
    funext a
    simp [insertCall, a.toDocument_toValue, Except.map]
  have husers : insertCall (usersOf database) ∘ User.toValue =
      fun u : User => .ok (.insertOne (usersOf database) u.document) := by
    funext u
    simp [insertCall, u.toDocument_toValue, Except.map]
  rw [seedCourse, requests_course]
  simp [plan, calls, setUp, appCalls, userCalls, happs, husers, Function.comp_def]

section

variable {database : Text} {p : DatabaseUser} {apps : List App} {users : List User}
  {accepted : List Request} {q : Request}

/-- The calls make no other insertions than those of the two lists. -/
theorem insertions_calls (place : Place) :
    (calls database p apps users).filterMap (Request.insertion? place) =
      (if appsOf database = place then apps.map App.document else []) ++
        (if usersOf database = place then users.map User.document else []) := by
  rw [← insertionsAt_map_ok, ← requests_seedCourse]
  exact Writing.insertionsAt_course place database (.seed Layout.declaredIndexes p apps users)

theorem orderly_of_mem_calls (hq : q ∈ calls database p apps users) : q.Orderly := by
  simp only [calls, setUp, appCalls, userCalls, List.mem_append, List.mem_cons, List.not_mem_nil,
    or_false, List.mem_map] at hq
  rcases hq with (rfl | rfl | rfl) | ⟨a, -, rfl⟩ | ⟨u, -, rfl⟩
  · trivial
  · trivial
  · trivial
  · exact (App.documented a).integerIdentified
  · exact (User.documented u).integerIdentified

/-- The stages that can be refused, each with its call and its report. -/
theorem attempt_cases {report : Failure → Failure}
    (h : .attempt (.ok q) report ∈ seedCourse database p apps users) :
    (q = .createUser database (.text p.user) (.text p.pwd) p.grants ∧
        report = whenUserRefused (.text p.user)) ∨
      (∃ place, (place = appsOf database ∨ place = usersOf database) ∧
        q = .createIndex place Layout.idKeys [("unique", .bool true)] ∧ report = id) ∨
      (∃ a ∈ apps, q = .insertOne (appsOf database) a.document ∧
        report = whenInsertRefused (appsOf database).collection a.toValue) ∨
      ∃ u ∈ users, q = .insertOne (usersOf database) u.document ∧
        report = whenInsertRefused (usersOf database).collection u.toValue := by
  have hindexes : indexings database Layout.declaredIndexes =
      [indexing (appsOf database) Layout.uniqueId, indexing (usersOf database) Layout.uniqueId] :=
    rfl
  simp only [seedCourse, course, hindexes, creation, List.mem_cons, List.mem_append, List.mem_map,
    List.not_mem_nil, or_false, reduceCtorEq, false_or, indexing_uniqueId,
    Stage.attempt.injEq, Except.ok.injEq, insertion, insertCall] at h
  rcases h with huser | (happs | husers) | ⟨_, ⟨a, ha, rfl⟩, hcall, hreport⟩ |
    ⟨_, ⟨u, hu, rfl⟩, hcall, hreport⟩
  · exact Or.inl huser
  · exact Or.inr (Or.inl ⟨_, Or.inl rfl, happs⟩)
  · exact Or.inr (Or.inl ⟨_, Or.inr rfl, husers⟩)
  · rw [a.toDocument_toValue] at hcall
    exact Or.inr (Or.inr (Or.inl ⟨a, ha, (Except.ok.inj hcall).symm, hreport.symm⟩))
  · rw [u.toDocument_toValue] at hcall
    exact Or.inr (Or.inr (Or.inr ⟨u, hu, (Except.ok.inj hcall).symm, hreport.symm⟩))

/-- The creation of the database user comes before any other call. -/
theorem accepted_nil_of_creation {database' : Text} {user pwd : Value} {roles : List Value}
    (h : accepted ++ [.createUser database' user pwd roles] <+: calls database p apps users) :
    accepted = [] := by
  cases accepted with
  | nil => rfl
  | cons first rest =>
      have hlater := (List.cons_prefix_cons.mp h).2
      have hmem := hlater.subset (List.mem_append_right _ (List.mem_singleton.mpr rfl))
      simp [appCalls, userCalls] at hmem

/-- An insertion comes after the calls that set up. -/
theorem setUp_of_inserted (h : accepted <+: calls database p apps users)
    (hinserted : ∃ place doc, .insertOne place doc ∈ accepted) :
    ∃ entries, entries ≠ [] ∧ accepted = setUp database p ++ entries ∧
      entries <+: appCalls database apps ++ userCalls database users := by
  obtain ⟨place, doc, hmem⟩ := hinserted
  have hsetUp : setUp database p <+: calls database p apps users := List.prefix_append _ _
  rcases List.prefix_or_prefix_of_prefix h hsetUp with hshort | ⟨entries, rfl⟩
  · have hcall := hshort.subset hmem
    simp [setUp] at hcall
  · refine ⟨entries, ?_, rfl, (List.prefix_append_right_inj _).mp h⟩
    rintro rfl
    simp [setUp] at hmem

/-- The first insertion is that of the first app. -/
theorem first_insertion {a : App} (h : accepted <+: calls database p (a :: apps) users)
    (hinserted : ∃ place doc, .insertOne place doc ∈ accepted) :
    .insertOne (appsOf database) a.document ∈ accepted := by
  obtain ⟨entries, hne, rfl, hentries⟩ := setUp_of_inserted h hinserted
  cases entries with
  | nil => exact absurd rfl hne
  | cons first rest =>
      have hfirst := (List.cons_prefix_cons.mp hentries).1
      subst hfirst
      exact List.mem_append_right _ List.mem_cons_self

/-- Without an insertion so far the next one is that of the first app, and the
set-up is complete. -/
theorem next_insertion {a : App} {place : Place} {doc : Document}
    (h : accepted ++ [.insertOne place doc] <+: calls database p (a :: apps) users)
    (hnone : ¬ ∃ place doc, .insertOne place doc ∈ accepted) :
    accepted = setUp database p ∧ place = appsOf database ∧ doc = a.document := by
  obtain ⟨entries, hne, hsplit, hentries⟩ :=
    setUp_of_inserted h ⟨place, doc, List.mem_append_right _ (List.mem_singleton.mpr rfl)⟩
  rcases List.eq_nil_or_concat entries with rfl | ⟨earlier, last, rfl⟩
  · exact absurd rfl hne
  · rw [List.concat_eq_append, ← List.append_assoc] at hsplit
    obtain ⟨haccepted, hlast⟩ := List.append_inj' hsplit rfl
    have hearlier : earlier = [] := by
      cases earlier with
      | nil => rfl
      | cons first rest =>
          have hfirst := (List.cons_prefix_cons.mp hentries).1
          refine absurd ⟨appsOf database, a.document, ?_⟩ hnone
          rw [haccepted, hfirst]
          exact List.mem_append_right _ List.mem_cons_self
    subst hearlier
    have hcall := (List.cons_prefix_cons.mp hentries).1
    rw [List.append_nil] at haccepted
    rw [← List.singleton_inj.mp hlast] at hcall
    cases hcall
    exact ⟨haccepted, rfl, rfl⟩

/-- The accepted insertions of a seed are the first apps; there are users among
them only once all apps are. -/
theorem insertions_of_prefix (h : accepted <+: calls database p apps users) :
    accepted.filterMap (Request.insertion? (appsOf database)) <+: apps.map App.document ∧
    accepted.filterMap (Request.insertion? (usersOf database)) <+: users.map User.document ∧
    (accepted.filterMap (Request.insertion? (usersOf database)) ≠ [] →
      accepted.filterMap (Request.insertion? (appsOf database)) = apps.map App.document) := by
  have happs : ∀ xs : List User, (calls database p apps xs).filterMap
      (Request.insertion? (appsOf database)) = apps.map App.document := by
    intro xs
    rw [insertions_calls, if_pos rfl, if_neg (appsOf_ne_usersOf database).symm, List.append_nil]
  have husers : ∀ xs : List User, (calls database p apps xs).filterMap
      (Request.insertion? (usersOf database)) = xs.map User.document := by
    intro xs
    rw [insertions_calls, if_neg (appsOf_ne_usersOf database), if_pos rfl, List.nil_append]
  have hfirst := h.filterMap (Request.insertion? (appsOf database))
  rw [happs] at hfirst
  refine ⟨hfirst, husers users ▸ h.filterMap _, ?_⟩
  intro hsome
  -- Either all apps are among the accepted calls, or no user is.
  have hbefore : calls database p apps [] <+: calls database p apps users := by
    simp only [calls, userCalls, List.map_nil, List.append_nil, ← List.append_assoc]
    exact List.prefix_append _ _
  rcases List.prefix_or_prefix_of_prefix h hbefore with hshort | hlong
  · have hnone := hshort.filterMap (Request.insertion? (usersOf database))
    rw [husers] at hnone
    exact absurd (List.prefix_nil.mp hnone) hsome
  · have hall := hlong.filterMap (Request.insertion? (appsOf database))
    rw [happs] at hall
    exact hfirst.eq_of_length_le hall.length_le

end

/-! ## The thread -/

/-- What a seed does after its calls: it reads the clock and reports. -/
def closing (database : Text) (p : DatabaseUser) (apps : List App) (users : List User)
    (start : Int) : Procedure (Except Failure Summary) :=
  .clock fun finish => .done (.ok ⟨.text p.user, database, apps.length, users.length,
    elapsedSeconds start finish⟩)

/-- The seed of validated entities. -/
def seedOf (database : Text) (p : DatabaseUser) (apps : List App) (users : List User) :
    Procedure (Except Failure Summary) :=
  (seed database Layout.declaredIndexes p.toValue (apps.map App.toValue)
    (users.map User.toValue)).run

theorem seedOf_eq (database : Text) (p : DatabaseUser) (apps : List App) (users : List User) :
    seedOf database p apps users = .clock fun start =>
      enact (closing database p apps users start) (seedCourse database p apps users) := by
  rw [seedOf, seed_run, List.length_map, List.length_map]
  rfl

section

variable (database : Text) (apps : List App) (users : List User) (p : DatabaseUser)

/-- A seed at any time between two turns, with the calls that were accepted. -/
inductive Underway : Thread (Except Failure Summary) → Prop
  /-- Its first turn is still to come. -/
  | waiting (c : Clock) : Underway (Thread.start (seedOf database p apps users) c)
  /-- Some stages have been completed; the others are what is left. -/
  | going (start : Int) (c : Clock) {before stages : List Stage} {accepted : List Request}
      (hcourse : seedCourse database p apps users = before ++ stages)
      (haccepted : requests before = accepted.map .ok) :
      Underway ⟨enact (closing database p apps users start) stages, c, accepted⟩
  /-- It has ended with its summary, after all its calls. -/
  | complete (report : Summary) (c : Clock) :
      Underway ⟨.done (.ok report), c, calls database p apps users⟩
  /-- It has ended with a failure, after some of its calls. -/
  | failed (f : Failure) (c : Clock) {accepted : List Request}
      (haccepted : accepted <+: calls database p apps users) :
      Underway ⟨.done (.error f), c, accepted⟩

/-- What a turn of a seed against the store can be, from the thread `t` and the
store `s` to the thread `u` and the store `s'`. -/
inductive Turned (t : Thread (Except Failure Summary)) (s : Store)
    (u : Thread (Except Failure Summary)) (s' : Store) : Prop
  /-- No call is made, and the seed does not fail. -/
  | quiet (hstate : s' = s) (haccepted : u.accepted = t.accepted)
      (hresult : ∀ f, u.result? = some (.error f) → t.result? = some (.error f))
  /-- The next call is accepted. -/
  | accepted {q : Request} {a : q.Answer}
      (hnext : t.accepted ++ [q] <+: calls database p apps users)
      (hanswer : Store.server.answer q s = (.ok a, s'))
      (haccepted : u.accepted = t.accepted ++ [q]) (hresult : u.result? = none)
  /-- The next call is refused, which ends the seed. -/
  | refused {q : Request} {f : Failure} {report : Failure → Failure} (hstate : s' = s)
      (hnext : t.accepted ++ [q] <+: calls database p apps users)
      (hstage : .attempt (.ok q) report ∈ seedCourse database p apps users)
      (hanswer : Store.server.answer q s = (.error f, s))
      (haccepted : u.accepted = t.accepted) (hresult : u.result? = some (.error (report f)))

end

section

variable {database : Text} {apps : List App} {users : List User} {p : DatabaseUser}

/-- The stages that are left attempt the calls that are left. -/
theorem left_of_going {before stages : List Stage} {accepted : List Request}
    (hcourse : seedCourse database p apps users = before ++ stages)
    (haccepted : requests before = accepted.map .ok) :
    ∃ left, calls database p apps users = accepted ++ left ∧ requests stages = left.map .ok := by
  have hall := requests_seedCourse database p apps users
  rw [hcourse, Stage.requests_append, haccepted] at hall
  obtain ⟨done, left, hcalls, hdone, hleft⟩ := List.map_eq_append_iff.mp hall.symm
  have hinjective : Function.Injective (Except.ok : Request → Except Failure Request) :=
    fun _ _ h => Except.ok.inj h
  rw [List.map_injective_iff.mpr hinjective hdone] at hcalls
  exact ⟨left, hcalls, hleft.symm⟩

theorem Underway.accepted_calls {t : Thread (Except Failure Summary)}
    (h : Underway database apps users p t) : t.accepted <+: calls database p apps users := by
  cases h with
  | waiting c => exact List.nil_prefix
  | going start c hcourse haccepted =>
      obtain ⟨left, hcalls, -⟩ := left_of_going hcourse haccepted
      exact hcalls ▸ List.prefix_append _ _
  | complete report c => exact List.prefix_refl _
  | failed f c haccepted => exact haccepted

/-- A seed that has succeeded had all its calls accepted. -/
theorem Underway.accepted_of_ok {t : Thread (Except Failure Summary)} {report : Summary}
    (h : Underway database apps users p t) (hresult : t.result? = some (.ok report)) :
    t.accepted = calls database p apps users := by
  cases h with
  | waiting c =>
      rw [Thread.start, seedOf_eq] at hresult
      cases hresult
  | going start c hcourse haccepted =>
      obtain ⟨left, -, hleft⟩ := left_of_going hcourse haccepted
      rw [result?_enact _ (fun _ _ => rfl) hleft] at hresult
      cases hresult
  | complete report c => rfl
  | failed f c haccepted => cases hresult

/-- A turn at a stage that can be refused. -/
theorem turned_attempt (start : Int) (c : Clock) {before rest : List Stage}
    {accepted left : List Request} {q : Request} {report : Failure → Failure}
    (hcourse : seedCourse database p apps users = before ++ .attempt (.ok q) report :: rest)
    (haccepted : requests before = accepted.map .ok)
    (hcalls : calls database p apps users = accepted ++ q :: left)
    (hleft : requests rest = left.map .ok) (s : Store) :
    let t : Thread (Except Failure Summary) :=
      ⟨enact (closing database p apps users start) (.attempt (.ok q) report :: rest), c, accepted⟩
    Underway database apps users p (t.turn Store.server s).1 ∧
      Turned database apps users p t s (t.turn Store.server s).1 (t.turn Store.server s).2 := by
  have hnext : accepted ++ [q] <+: calls database p apps users := ⟨left, by simp [hcalls]⟩
  have hstage : .attempt (.ok q) report ∈ seedCourse database p apps users := by
    rw [hcourse]
    exact List.mem_append_right _ List.mem_cons_self
  rcases hanswer : Store.server.answer q s with ⟨answer, s'⟩
  simp only [enact, Thread.turn, hanswer]
  cases answer with
  | error f =>
      have hsame : s' = s := Truthful.store.nothingDone hanswer
      subst hsame
      exact ⟨.failed _ c (hcalls ▸ List.prefix_append _ _),
        .refused rfl hnext hstage hanswer rfl rfl⟩
  | ok a =>
      have hcourse' : seedCourse database p apps users =
          (before ++ [.attempt (.ok q) report]) ++ rest := by
        rw [hcourse, List.append_assoc, List.singleton_append]
      have hdone : requests (before ++ [.attempt (.ok q) report]) =
          (accepted ++ [q]).map .ok := by
        rw [Stage.requests_append, haccepted, List.map_append]
        rfl
      exact ⟨.going start c hcourse' hdone, .accepted hnext hanswer rfl
        (result?_enact _ (fun _ _ => rfl) hleft c _)⟩

/-- **A turn of a seed** makes no call, or has the next call accepted, or has it
refused and ends. -/
theorem Underway.turn {t : Thread (Except Failure Summary)} (h : Underway database apps users p t)
    (s : Store) : Underway database apps users p (t.turn Store.server s).1 ∧
      Turned database apps users p t s (t.turn Store.server s).1 (t.turn Store.server s).2 := by
  cases h with
  | waiting c =>
      rw [Thread.start, seedOf_eq]
      have hcourse : seedCourse database p apps users = [] ++ seedCourse database p apps users :=
        rfl
      refine ⟨.going _ _ hcourse rfl, .quiet rfl rfl ?_⟩
      intro f hf
      have hnone := result?_enact (closing database p apps users (Clock.read c).1)
        (fun _ _ => rfl) (requests_seedCourse database p apps users) (Clock.read c).2 []
      exact absurd (hnone.symm.trans hf) nofun
  | @going start c before stages accepted hcourse haccepted =>
      obtain ⟨left, hcalls, hleft⟩ := left_of_going hcourse haccepted
      cases stages with
      | nil =>
          have hnil : left = [] := List.map_eq_nil_iff.mp hleft.symm
          rw [hnil, List.append_nil] at hcalls
          subst hcalls
          exact ⟨.complete _ _, .quiet rfl rfl nofun⟩
      | cons stage rest =>
          cases stage with
          | record r =>
              have hcourse' : seedCourse database p apps users =
                  (before ++ [.record r]) ++ rest := by
                rw [hcourse, List.append_assoc, List.singleton_append]
              have hquiet : requests (before ++ [.record r]) = accepted.map .ok := by
                rw [Stage.requests_append, haccepted]
                exact List.append_nil _
              refine ⟨.going start c hcourse' hquiet, .quiet rfl rfl ?_⟩
              intro f hf
              rw [Stage.requests_cons_record] at hleft
              have hnone := result?_enact (closing database p apps users start)
                (fun _ _ => rfl) hleft c accepted
              exact absurd (hnone.symm.trans hf) nofun
          | attempt request report =>
              cases left with
              | nil => cases hleft
              | cons q left =>
                  rw [Stage.requests_cons_attempt, List.map_cons, List.cons.injEq] at hleft
                  obtain ⟨rfl, hleft⟩ := hleft
                  exact turned_attempt start c hcourse haccepted hcalls hleft s
  | complete report c => exact ⟨.complete report c, .quiet rfl rfl fun _ h => h⟩
  | failed f c haccepted => exact ⟨.failed f c haccepted, .quiet rfl rfl fun _ h => h⟩

end

end Seeding

end InitialLoad
