import InitialLoad.Proofs.Documents
import InitialLoad.Proofs.SeedCourse
import InitialLoad.Server.Request

/-!
# What can be written

The documents and the principals whose calls can be written.  A text has no
obstacle when it has no lone surrogates, and an integer when it fits into eight
bytes (`textObstacle?_eq_none_iff`, `obstacle?_int_iff`).  An entity is
`Encodable` when every text and every integer in it is of that sort, and then
the call that carries it can be written.

What is said of an obstacle is never a refusal of the server and never a
cancellation: `Problem.Obstructs` lists all that it can be.
-/

namespace InitialLoad

/-- What can stand against writing a value. -/
inductive Problem.Obstructs : Problem → Prop
  | surrogates (text : Text) (first last : Nat) : Obstructs (.unencodable text first last)
  | size : Obstructs .integerTooLarge
  | record (kind : Kind) (fields : List (Text × Value)) : Obstructs (.unwritable kind fields)

namespace Value

theorem surrogateRun?_eq_none_iff (position : Nat) (t : Text) :
    surrogateRun? position t = none ↔ t.wellFormed := by
  induction t generalizing position with
  | nil => simp [surrogateRun?, Text.wellFormed]
  | cons c rest ih =>
      have hrest := ih (position + 1)
      by_cases hc : c.isSurrogate = true
      · simp [surrogateRun?, Text.wellFormed, hc]
      · simpa [surrogateRun?, Text.wellFormed, hc] using hrest

/-- A text can be written exactly when it has no lone surrogates. -/
theorem textObstacle?_eq_none_iff (t : Text) : textObstacle? t = none ↔ t.wellFormed := by
  simp [textObstacle?, surrogateRun?_eq_none_iff]

theorem textObstacle?_eq_none {t : Text} (h : t.wellFormed) : textObstacle? t = none :=
  (textObstacle?_eq_none_iff t).mpr h

theorem obstacle?_int {n : Int} (h : fitsEightBytes n) : obstacle? (.int n) = none := by
  simp [obstacle?, h]

/-- An integer outside the eight-byte range cannot be written. -/
theorem obstacle?_int_of_not_fits {n : Int} (h : fitsEightBytes n = false) :
    obstacle? (.int n) = some .integerTooLarge := by
  simp [obstacle?, h]

theorem obstacle?_text {t : Text} (h : t.wellFormed) : obstacle? (.text t) = none := by
  simp [obstacle?, textObstacle?_eq_none h]

theorem obstacle?_text_eq_none_iff (t : Text) : obstacle? (.text t) = none ↔ t.wellFormed := by
  rw [obstacle?, textObstacle?_eq_none_iff]

/-- A list can be written exactly when every item can. -/
theorem obstacleInItems?_eq_none_iff (items : List Value) :
    obstacleInItems? items = none ↔ ∀ v ∈ items, obstacle? v = none := by
  induction items with
  | nil => simp [obstacleInItems?]
  | cons v rest ih => cases hv : obstacle? v <;> simp [obstacleInItems?, hv, ih]

theorem obstacleInEntries?_eq_none_iff (entries : List (Text × Value)) :
    obstacleInEntries? entries = none ↔
      ∀ entry ∈ entries, textObstacle? entry.1 = none ∧ obstacle? entry.2 = none := by
  induction entries with
  | nil => simp [obstacleInEntries?]
  | cons entry rest ih =>
      cases hname : textObstacle? entry.1 <;> cases hv : obstacle? entry.2 <;>
        simp [obstacleInEntries?, hname, hv, ih]

/-- An integer in a document that can be written fits into eight bytes. -/
theorem fits_of_get? {name : Text} {n : Int} {entries : Document}
    (h : obstacleInEntries? entries = none) (hget : Entries.get? name entries = some (.int n)) :
    fitsEightBytes n := by
  have hv := ((obstacleInEntries?_eq_none_iff entries).mp h _ (Entries.mem_of_get? hget)).2
  cases hfits : fitsEightBytes n with
  | true => rfl
  | false => cases (obstacle?_int_of_not_fits hfits).symm.trans hv

/-- The entries after one that can be written decide. -/
theorem obstacleInEntries?_cons {name : Text} {v : Value} (hname : name.wellFormed)
    (hv : obstacle? v = none) (rest : List (Text × Value)) :
    obstacleInEntries? ((name, v) :: rest) = obstacleInEntries? rest := by
  simp [obstacleInEntries?, textObstacle?_eq_none hname, hv]

theorem obstructs_of_textObstacle {t : Text} {p : Problem} (h : textObstacle? t = some p) :
    p.Obstructs := by
  obtain ⟨run, -, rfl⟩ := Option.map_eq_some_iff.mp h
  exact .surrogates t run.1 run.2

mutual

theorem obstructs_of_obstacle {v : Value} {p : Problem} (h : obstacle? v = some p) :
    p.Obstructs := by
  cases v with
  | int n =>
      rw [obstacle?] at h
      split at h <;> cases h
      exact .size
  | text t => exact obstructs_of_textObstacle h
  | list items => exact obstructs_of_obstacleInItems h
  | tuple items => exact obstructs_of_obstacleInItems h
  | object entries => exact obstructs_of_obstacleInEntries h
  | record kind fields =>
      cases h
      exact .record kind fields
  | _ => cases h

theorem obstructs_of_obstacleInItems {items : List Value} {p : Problem}
    (h : obstacleInItems? items = some p) : p.Obstructs := by
  cases items with
  | nil => cases h
  | cons v rest =>
      rw [obstacleInItems?] at h
      split at h
      · cases h
        exact obstructs_of_obstacle ‹_›
      · exact obstructs_of_obstacleInItems h

theorem obstructs_of_obstacleInEntries {entries : List (Text × Value)} {p : Problem}
    (h : obstacleInEntries? entries = some p) : p.Obstructs := by
  cases entries with
  | nil => cases h
  | cons entry rest =>
      rw [obstacleInEntries?] at h
      split at h
      · cases h
        exact obstructs_of_textObstacle ‹_›
      · split at h
        · cases h
          exact obstructs_of_obstacle ‹_›
        · exact obstructs_of_obstacleInEntries h

end

end Value

theorem Request.obstructs {q : Request} {p : Problem} (h : q.obstacle? = some p) :
    p.Obstructs := by
  cases q with
  | createUser database user pwd roles => exact Value.obstructs_of_obstacleInItems h
  | createIndex place keys options =>
      simp only [obstacle?] at h
      split at h
      · exact Value.obstructs_of_obstacleInItems h
      · cases h
  | insertOne place doc => exact Value.obstructs_of_obstacleInEntries h
  | findOne place id => exact Value.obstructs_of_obstacle h
  | _ => cases h

namespace Problem.Obstructs

variable {p : Problem}

theorem not_cancellation (h : p.Obstructs) : p.isCancellation = false := by cases h <;> rfl

theorem not_refusal (h : p.Obstructs) (code : Int) : p.isRefusalWith code = false := by
  cases h <;> rfl

end Problem.Obstructs

/-! ## Entities -/

/-- The fields of a user can be written. -/
structure User.Encodable (u : User) : Prop where
  id : Value.fitsEightBytes u.id
  name : u.name.wellFormed
  age : ∀ n ∈ u.age, Value.fitsEightBytes n
  friend : u.friend.wellFormed

/-- The fields of a right and of its user can be written. -/
structure Right.Encodable (r : Right) : Prop where
  right : r.right.wellFormed
  user : r.user.Encodable

/-- The fields of an app and of all its rights can be written. -/
structure App.Encodable (a : App) : Prop where
  id : Value.fitsEightBytes a.id
  name : a.name.wellFormed
  stars : Value.fitsEightBytes a.stars
  rights : ∀ r ∈ a.rights, r.Encodable

theorem User.obstacle_document {u : User} (h : u.Encodable) :
    Value.obstacleInEntries? u.document = none := by
  have hid := Value.obstacle?_int h.id
  have hname := Value.obstacle?_text h.name
  have hfriend := Value.obstacle?_text h.friend
  unfold document
  cases hage : u.age with
  | none =>
      rw [Value.obstacleInEntries?_cons (by decide) hid,
        Value.obstacleInEntries?_cons (by decide) hname,
        Value.obstacleInEntries?_cons (by decide) hfriend]
      rfl
  | some n =>
      have hn := Value.obstacle?_int (h.age n (by simp [hage]))
      rw [Value.obstacleInEntries?_cons (by decide) hid,
        Value.obstacleInEntries?_cons (by decide) hname,
        Value.obstacleInEntries?_cons (by decide) hn,
        Value.obstacleInEntries?_cons (by decide) hfriend]
      rfl

theorem Right.obstacle_document {r : Right} (h : r.Encodable) :
    Value.obstacle? r.document = none := by
  have huser : Value.obstacle? (.object r.user.document) = none := by
    simpa [Value.obstacle?] using User.obstacle_document h.user
  unfold document
  rw [Value.obstacle?, Value.obstacleInEntries?_cons (by decide) (Value.obstacle?_text h.right),
    Value.obstacleInEntries?_cons (by decide) huser]
  rfl

theorem Right.obstacleInItems_documents {rights : List Right} (h : ∀ r ∈ rights, r.Encodable) :
    Value.obstacleInItems? (rights.map Right.document) = none := by
  induction rights with
  | nil => rfl
  | cons r rest ih =>
      have hr := Right.obstacle_document (h r List.mem_cons_self)
      simpa [Value.obstacleInItems?, hr] using ih fun q hq => h q (List.mem_cons_of_mem _ hq)

theorem App.obstacle_document {a : App} (h : a.Encodable) :
    Value.obstacleInEntries? a.document = none := by
  have hrights : Value.obstacle? (.list (a.rights.map Right.document)) = none := by
    simpa [Value.obstacle?] using Right.obstacleInItems_documents h.rights
  unfold document
  rw [Value.obstacleInEntries?_cons (by decide) (Value.obstacle?_int h.id),
    Value.obstacleInEntries?_cons (by decide) (Value.obstacle?_text h.name),
    Value.obstacleInEntries?_cons (by decide) (Value.obstacle?_int h.stars)]
  split
  · rfl
  · rw [Value.obstacleInEntries?_cons (by decide) hrights]
    rfl

/-! ## Database users -/

/-- The role and the database of a grant can be written. -/
structure RoleGrant.Encodable (g : RoleGrant) : Prop where
  role : g.role.wellFormed
  db : g.db.wellFormed

/-- The fields of a database user and of all its grants can be written. -/
structure DatabaseUser.Encodable (p : DatabaseUser) : Prop where
  user : p.user.wellFormed
  pwd : p.pwd.wellFormed
  roles : ∀ g ∈ p.roles, g.Encodable

/-- Why the creation of a database user cannot be written. -/
def DatabaseUser.obstacle? (p : DatabaseUser) : Option Problem :=
  Value.obstacleInItems? (.text p.user :: .text p.pwd :: p.grants)

theorem RoleGrant.obstacle?_eq_none_iff (g : RoleGrant) :
    Value.obstacle? (.object [("role", .text g.role), ("db", .text g.db)]) = none ↔
      g.Encodable := by
  simp only [Value.obstacle?, Value.obstacleInEntries?_eq_none_iff, List.forall_mem_cons,
    Value.textObstacle?_eq_none_iff]
  constructor
  · intro h
    exact ⟨h.1.2, h.2.1.2⟩
  · intro h
    exact ⟨⟨by decide, h.role⟩, ⟨by decide, h.db⟩, by simp⟩

/-- The creation of a database user can be written exactly when the user is encodable. -/
theorem DatabaseUser.obstacle?_eq_none_iff (p : DatabaseUser) :
    p.obstacle? = none ↔ p.Encodable := by
  have hgrants : (∀ v ∈ p.grants, Value.obstacle? v = none) ↔ ∀ g ∈ p.roles, g.Encodable := by
    simp [grants, RoleGrant.obstacle?_eq_none_iff]
  simp only [obstacle?, Value.obstacleInItems?_eq_none_iff, List.forall_mem_cons,
    Value.obstacle?_text_eq_none_iff, hgrants]
  constructor
  · intro h
    exact ⟨h.1, h.2.1, h.2.2⟩
  · intro h
    exact ⟨h.user, h.pwd, h.roles⟩

theorem DatabaseUser.obstacle?_createUser (database : Text) (p : DatabaseUser) :
    (Request.createUser database (.text p.user) (.text p.pwd) p.grants).obstacle? =
      p.obstacle? := rfl

end InitialLoad
