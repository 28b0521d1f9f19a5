import InitialLoad.Proofs.SeedThread

/-!
# The race of concurrent seeds

Any number of seeds of one database at the same time, with the same apps and
users and a principal each, on a database without documents.  Whatever order
their calls take, only one of them inserts anything.  Every seed has the index on
apps created before its first insertion, and this insertion is that of the first
app, so once one seed has inserted the first app the index refuses it to every
other seed.  `Race` is the invariant: one seed leads, and what is in the database
is what the leader has inserted.
-/

namespace InitialLoad

namespace Seeding

variable {ι : Type} {database : Text} {apps : List App} {users : List User}
  {principals : ι → DatabaseUser}

/-- Seeds of one database at the same time. -/
abbrev SeedWorld (ι : Type) := World Store ι (Except Failure Summary)

/-! ## One seed leads -/

/-- The documents of the database are those that one thread has inserted, and no
other thread has inserted any. -/
structure Leads (database : Text) (w : SeedWorld ι) (k : ι) : Prop where
  others : ∀ i, i ≠ k → ¬ (w.threads i).Inserted
  apps : (w.state.collection (appsOf database)).documents =
    (w.threads k).accepted.filterMap (Request.insertion? (appsOf database))
  users : (w.state.collection (usersOf database)).documents =
    (w.threads k).accepted.filterMap (Request.insertion? (usersOf database))

/-- The invariant of concurrent seeds. -/
structure Race (database : Text) (apps : List App) (users : List User)
    (principals : ι → DatabaseUser) (w : SeedWorld ι) : Prop where
  underway : ∀ i, Underway database apps users (principals i) (w.threads i)
  leader : ∃ k, Leads database w k
  indexed : ∀ i, .createIndex (appsOf database) Layout.idKeys [("unique", .bool true)] ∈
    (w.threads i).accepted → (w.state.collection (appsOf database)).Guarded

/-- A thread without an insertion has inserted no document anywhere. -/
theorem insertions_of_not_inserted {t : Thread (Except Failure Summary)} (h : ¬ t.Inserted)
    (place : Place) : t.accepted.filterMap (Request.insertion? place) = [] := by
  rw [List.filterMap_eq_nil_iff]
  intro q hq
  cases q with
  | insertOne other doc => exact absurd ⟨other, doc, hq⟩ h
  | _ => rfl

theorem insertion?_of_ne {q : Request} (hq : ¬ ∃ place doc, q = .insertOne place doc)
    (place : Place) : q.insertion? place = none := by
  cases q with
  | insertOne other doc => exact absurd ⟨other, doc, rfl⟩ hq
  | _ => rfl

section

variable {w : SeedWorld ι} {k : ι}

/-- The documents are the first apps and the first users; there are users only
once all apps are there. -/
theorem Race.documents (h : Race database apps users principals w) :
    (w.state.collection (appsOf database)).documents <+: apps.map App.document ∧
    (w.state.collection (usersOf database)).documents <+: users.map User.document ∧
    ((w.state.collection (usersOf database)).documents ≠ [] →
      (w.state.collection (appsOf database)).documents = apps.map App.document) := by
  obtain ⟨k, hk⟩ := h.leader
  rw [hk.apps, hk.users]
  exact insertions_of_prefix (h.underway k).accepted_calls

theorem Race.integerIds_apps (h : Race database apps users principals w) :
    (w.state.collection (appsOf database)).IntegerIds := by
  intro doc hdoc
  obtain ⟨a, -, rfl⟩ := List.mem_map.mp (h.documents.1.subset hdoc)
  exact (App.documented a).integerIdentified

theorem Race.integerIds_users (h : Race database apps users principals w) :
    (w.state.collection (usersOf database)).IntegerIds := by
  intro doc hdoc
  obtain ⟨u, -, rfl⟩ := List.mem_map.mp (h.documents.2.1.subset hdoc)
  exact (User.documented u).integerIdentified

/-- A thread with an insertion is the leader. -/
theorem Leads.eq_of_inserted (h : Leads database w k) {i : ι} (hi : (w.threads i).Inserted) :
    i = k := by
  by_contra hne
  exact h.others i hne hi

/-- Once the leader has inserted anything the first app is there. -/
theorem Leads.first_app {a : App} {rest : List App} (h : Leads database w k)
    (hrace : Race database (a :: rest) users principals w) (hinserted : (w.threads k).Inserted) :
    a.document ∈ (w.state.collection (appsOf database)).documents := by
  have hfirst := first_insertion (hrace.underway k).accepted_calls hinserted
  rw [h.apps, List.mem_filterMap]
  exact ⟨_, hfirst, by simp [Request.insertion?, (App.documented a).stored]⟩

/-- A turn in which no call is accepted keeps the leader and the indexes. -/
theorem Race.of_same {v : SeedWorld ι} (h : Race database apps users principals w)
    (hunderway : ∀ j, Underway database apps users (principals j) (v.threads j))
    (hstate : v.state = w.state)
    (haccepted : ∀ j, (v.threads j).accepted = (w.threads j).accepted) :
    Race database apps users principals v := by
  obtain ⟨k, hk⟩ := h.leader
  refine ⟨hunderway, ⟨k, ?_, ?_, ?_⟩, ?_⟩
  · intro i hi
    unfold Thread.Inserted
    rw [haccepted]
    exact hk.others i hi
  · rw [hstate, haccepted]
    exact hk.apps
  · rw [hstate, haccepted]
    exact hk.users
  · intro i
    rw [hstate, haccepted]
    exact h.indexed i

end

/-! ## The race goes on -/

/-- A call of one thread was accepted on the way from one world to another. -/
structure Advances (w : SeedWorld ι) (i : ι) (q : Request) (v : SeedWorld ι) : Prop where
  answered : ∃ a, Store.server.answer q w.state = (.ok a, v.state)
  self : (v.threads i).accepted = (w.threads i).accepted ++ [q]
  others : ∀ j, j ≠ i → (v.threads j).accepted = (w.threads j).accepted

section

variable {w v : SeedWorld ι} {i k : ι} {q : Request}

theorem Advances.documents (h : Advances w i q v) (place : Place) :
    (v.state.collection place).documents =
      (w.state.collection place).documents ++ (q.insertion? place).toList := by
  obtain ⟨a, hanswer⟩ := h.answered
  exact Store.documents_of_accepted hanswer place

theorem Advances.inserted_of_ne (h : Advances w i q v) {j : ι} (hj : j ≠ i) :
    (v.threads j).Inserted ↔ (w.threads j).Inserted := by
  unfold Thread.Inserted
  rw [h.others j hj]

/-- What the advancing thread has inserted at a place. -/
theorem Advances.insertions (h : Advances w i q v) (place : Place) :
    (v.threads i).accepted.filterMap (Request.insertion? place) =
      (w.threads i).accepted.filterMap (Request.insertion? place) ++
        (q.insertion? place).toList := by
  rw [h.self, List.filterMap_append]
  cases hq : q.insertion? place <;> simp [hq]

/-- The leader leads on when it is the one that advances. -/
theorem Leads.advance (h : Leads database w i) (hadvances : Advances w i q v) :
    Leads database v i where
  others j hj := by
    rw [hadvances.inserted_of_ne hj]
    exact h.others j hj
  apps := by rw [hadvances.documents, hadvances.insertions, h.apps]
  users := by rw [hadvances.documents, hadvances.insertions, h.users]

/-- The leader leads on when another thread advances without an insertion. -/
theorem Leads.wait (h : Leads database w k) (hadvances : Advances w i q v) (hk : k ≠ i)
    (hq : ¬ ∃ place doc, q = .insertOne place doc) : Leads database v k where
  others j hj := by
    by_cases hji : j = i
    · subst hji
      rintro ⟨place, doc, hmem⟩
      rw [hadvances.self, List.mem_append, List.mem_singleton] at hmem
      rcases hmem with hmem | heq
      · exact h.others j hj ⟨place, doc, hmem⟩
      · exact hq ⟨place, doc, heq.symm⟩
    · rw [hadvances.inserted_of_ne hji]
      exact h.others j hj
  apps := by
    rw [hadvances.documents, insertion?_of_ne hq, hadvances.others k hk, h.apps]
    exact List.append_nil _
  users := by
    rw [hadvances.documents, insertion?_of_ne hq, hadvances.others k hk, h.users]
    exact List.append_nil _

/-- As long as nobody has inserted anything, the lead is open. -/
theorem Leads.pass (h : Leads database w k) (hk : ¬ (w.threads k).Inserted) (j : ι) :
    Leads database w j := by
  have hnone : ∀ j, ¬ (w.threads j).Inserted := by
    intro j
    by_cases hj : j = k
    · exact hj ▸ hk
    · exact h.others j hj
  refine ⟨fun i _ => hnone i, ?_, ?_⟩
  · rw [h.apps, insertions_of_not_inserted hk, insertions_of_not_inserted (hnone j)]
  · rw [h.users, insertions_of_not_inserted hk, insertions_of_not_inserted (hnone j)]

/-- **The first app decides.**  A thread that has an insertion accepted leads, for
beside another leader its first app would have been refused. -/
theorem Race.leads_of_insertion {a : App} {rest : List App} {place : Place} {doc : Document}
    (h : Race database (a :: rest) users principals w)
    (hadvances : Advances w i (.insertOne place doc) v)
    (hnext : (w.threads i).accepted ++ [.insertOne place doc] <+:
      calls database (principals i) (a :: rest) users) : Leads database w i := by
  obtain ⟨k, hk⟩ := h.leader
  by_cases hinserted : (w.threads i).Inserted
  · exact hk.eq_of_inserted hinserted ▸ hk
  · obtain ⟨haccepted, rfl, rfl⟩ := next_insertion hnext hinserted
    refine hk.pass ?_ i
    intro hleader
    have hguarded := h.indexed i (by rw [haccepted]; simp [setUp])
    obtain ⟨_, hanswer⟩ := hadvances.answered
    have habsent := hguarded.absent_of_insert (App.documented a).integerIdentified
      (insert_of_answer hanswer)
    rw [(App.documented a).stored] at habsent
    exact habsent (List.mem_map_of_mem (hk.first_app h hleader))

/-- An accepted call keeps the invariant. -/
theorem Race.advance (happs : apps ≠ []) (h : Race database apps users principals w)
    (hunderway : ∀ j, Underway database apps users (principals j) (v.threads j))
    (hadvances : Advances w i q v)
    (hnext : (w.threads i).accepted ++ [q] <+: calls database (principals i) apps users) :
    Race database apps users principals v := by
  obtain ⟨a, rest, rfl⟩ := List.exists_cons_of_ne_nil happs
  refine ⟨hunderway, ?_, ?_⟩
  · by_cases hq : ∃ place doc, q = .insertOne place doc
    · obtain ⟨place, doc, rfl⟩ := hq
      exact ⟨i, (h.leads_of_insertion hadvances hnext).advance hadvances⟩
    · obtain ⟨k, hk⟩ := h.leader
      by_cases hki : k = i
      · subst hki
        exact ⟨k, hk.advance hadvances⟩
      · exact ⟨k, hk.wait hadvances hki hq⟩
  · intro j hj
    obtain ⟨_, hanswer⟩ := hadvances.answered
    have hkept : (w.state.collection (appsOf database)).Guarded →
        (v.state.collection (appsOf database)).Guarded := by
      intro hguarded
      have horderly := orderly_of_mem_calls
        (hnext.subset (List.mem_append_right _ (List.mem_singleton.mpr rfl)))
      have hv : v.state = (Store.answer q w.state).2 := (congrArg Prod.snd hanswer).symm
      rw [hv]
      exact Store.guarded_answer horderly hguarded
    by_cases hji : j = i
    · subst hji
      rw [hadvances.self, List.mem_append, List.mem_singleton] at hj
      rcases hj with hold | rfl
      · exact hkept (h.indexed j hold)
      · exact .of_createIndex h.integerIds_apps (createIndex_of_answer hanswer)
    · rw [hadvances.others j hji] at hj
      exact hkept (h.indexed j hj)

end

section

variable [DecidableEq ι] {w : SeedWorld ι}

/-- What a turn of a world does: nothing is accepted and the state stays, or a
call of the thread is accepted. -/
theorem Race.turned (h : Race database apps users principals w) (i : ι) :
    Turned database apps users (principals i) (w.threads i) w.state
      ((w.turn Store.server i).threads i) (w.turn Store.server i).state := by
  rw [World.turn_self]
  exact ((h.underway i).turn w.state).2

theorem Race.underway_turn (h : Race database apps users principals w) (i : ι) :
    ∀ j, Underway database apps users (principals j) ((w.turn Store.server i).threads j) := by
  intro j
  by_cases hj : j = i
  · subst hj
    rw [World.turn_self]
    exact ((h.underway j).turn w.state).1
  · rw [World.turn_of_ne _ hj]
    exact h.underway j

/-- Every turn keeps the invariant. -/
theorem Race.turn (happs : apps ≠ []) (h : Race database apps users principals w) (i : ι) :
    Race database apps users principals (w.turn Store.server i) := by
  have hunderway := h.underway_turn i
  have hothers : ∀ j, j ≠ i →
      ((w.turn Store.server i).threads j).accepted = (w.threads j).accepted := by
    intro j hj
    rw [World.turn_of_ne _ hj]
  have hall : ((w.turn Store.server i).threads i).accepted = (w.threads i).accepted →
      ∀ j, ((w.turn Store.server i).threads j).accepted = (w.threads j).accepted := by
    intro hself j
    by_cases hj : j = i
    · exact hj ▸ hself
    · exact hothers j hj
  cases h.turned i with
  | quiet hstate haccepted hresult => exact h.of_same hunderway hstate (hall haccepted)
  | refused hstate hnext hstage hanswer haccepted hresult =>
      exact h.of_same hunderway hstate (hall haccepted)
  | accepted hnext hanswer haccepted hresult =>
      exact h.advance happs hunderway ⟨⟨_, hanswer⟩, haccepted, hothers⟩ hnext

end

end Seeding

end InitialLoad
