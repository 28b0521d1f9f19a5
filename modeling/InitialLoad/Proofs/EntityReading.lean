import InitialLoad.Entity.Assignment
import InitialLoad.Entity.Document
import InitialLoad.Proofs.DocumentReading

/-!
# What is read is an entity

Data that are accepted as an app, as a user or as a database user are read as the record
of one, provided that there is no record in them already, which would be taken as it is,
whatever it holds.  So the entities are all that validation lets through.

Each reader is inverted on its own: a field was read from its value or has its stand-in,
a list was read item by item, an entity comes from an object.

An entity that is changed afterwards need not be one any more, but it is still `Formed`:
it has the fields of its kind, whatever they hold.
-/

namespace InitialLoad

/-! ## What holds at every depth -/

namespace Value

mutual

/-- What is asked holds of the value and of everything inside it. -/
def everywhere (p : Value → Bool) : Value → Bool
  | .list items => p (.list items) && everywhereInItems p items
  | .tuple items => p (.tuple items) && everywhereInItems p items
  | .object entries => p (.object entries) && everywhereInEntries p entries
  | .record kind fields => p (.record kind fields) && everywhereInEntries p fields
  | v => p v

/-- It holds of every item and of everything inside. -/
def everywhereInItems (p : Value → Bool) : List Value → Bool
  | [] => true
  | v :: rest => everywhere p v && everywhereInItems p rest

/-- It holds of every entry and of everything inside. -/
def everywhereInEntries (p : Value → Bool) : List (Text × Value) → Bool
  | [] => true
  | (_, v) :: rest => everywhere p v && everywhereInEntries p rest

end

/-- The value is an entity of some kind. -/
def isRecord : Value → Bool
  | .record _ _ => true
  | _ => false

/-- The value is no record, and has none inside. -/
def recordless (v : Value) : Bool := v.everywhere fun v => !v.isRecord

/-- No record at any depth. -/
def recordFree (data : Document) : Bool := everywhereInEntries (fun v => !v.isRecord) data

theorem everywhere_of_get? {p : Value → Bool} {data : Document} {name : Text} {v : Value}
    (h : everywhereInEntries p data = true) (hget : Entries.get? name data = some v) :
    everywhere p v = true := by
  induction data with
  | nil => cases hget
  | cons entry rest ih =>
      simp only [everywhereInEntries, Bool.and_eq_true] at h
      unfold Entries.get? at hget
      split at hget
      · cases hget
        exact h.1
      · exact ih h.2 hget

end Value

/-! ## What a reader accepted -/

theorem exists_of_map_eq_ok {ε α β : Type} {e : Except ε α} {f : α → β} {b : β}
    (h : e.map f = .ok b) : ∃ a, e = .ok a ∧ b = f a := by
  cases e with
  | error g => cases h
  | ok a => exact ⟨a, rfl, (Except.ok.inj h).symm⟩

namespace Reading

variable {α : Type}

/-- What was read together was read part by part. -/
theorem gather_eq_ok {readings : List (Reading α)} {xs : List α} (h : gather readings = .ok xs) :
    List.Forall₂ (fun reading x => reading = .ok x) readings xs := by
  induction readings generalizing xs with
  | nil =>
      cases h
      exact .nil
  | cons reading rest ih =>
      cases hrest : gather rest with
      | error faults => cases reading <;> simp [gather, hrest] at h
      | ok more =>
          cases reading with
          | error faults => simp [gather, hrest] at h
          | ok x =>
              simp only [gather, hrest, Except.ok.injEq] at h
              subst h
              exact .cons rfl (ih hrest)

theorem under_eq_ok {reading : Reading α} {step : PathStep} {x : α}
    (h : reading.under step = .ok x) : reading = .ok x := by
  cases reading with
  | error faults => cases h
  | ok y => exact h

end Reading

/-- A field that was read has its stand-in, or what was made of its value. -/
theorem FieldRule.apply_eq_ok {data : Document} {rule : FieldRule} {entry : Text × Value}
    (h : rule.apply data = .ok entry) :
    ∃ w, entry = (rule.name, w) ∧ (rule.standIn = some w ∨
      ∃ v, Entries.get? rule.name data = some v ∧ rule.read v = .ok w) := by
  unfold FieldRule.apply at h
  split at h
  case h_1 v hv =>
    obtain ⟨w, hw, rfl⟩ := exists_of_map_eq_ok h
    exact ⟨w, rfl, Or.inr ⟨v, hv, Reading.under_eq_ok hw⟩⟩
  case h_2 =>
    split at h
    case h_1 v hv =>
      cases h
      exact ⟨v, rfl, Or.inl hv⟩
    case h_2 => cases h

/-- Fields that were read were read one by one, in the order of their declaration. -/
theorem readFields_eq_ok {rules : List FieldRule} {data fields : Document}
    (h : readFields rules data = .ok fields) :
    List.Forall₂ (fun rule entry => FieldRule.apply data rule = .ok entry) rules fields :=
  List.forall₂_map_left_iff.mp (Reading.gather_eq_ok h)

namespace Value

variable {v w : Value}

/-- A field without a stand-in was read from a value. -/
theorem required {data : Document} {name : Text} {read : Value → Reading Value}
    {entry : Text × Value} (h : FieldRule.apply data ⟨name, read, none⟩ = .ok entry) :
    ∃ v w, Entries.get? name data = some v ∧ read v = .ok w ∧ entry = (name, w) := by
  obtain ⟨w, hentry, hstandIn | ⟨v, hv, hread⟩⟩ := FieldRule.apply_eq_ok h
  · cases hstandIn
  · exact ⟨v, w, hv, hread, hentry⟩

theorem integerField_eq_ok (h : integerField v = .ok w) : ∃ n, w = .int n := by
  obtain ⟨n, -, hw⟩ := exists_of_map_eq_ok h
  exact ⟨n, hw⟩

theorem optionalIntegerField_eq_ok (h : optionalIntegerField v = .ok w) :
    ∃ n, w = .ofOptionalInt n := by
  unfold optionalIntegerField at h
  split at h
  · cases h
    exact ⟨none, rfl⟩
  · obtain ⟨n, rfl⟩ := integerField_eq_ok h
    exact ⟨some n, rfl⟩

/-- A required field for an integer has one. -/
theorem integer_of_apply {data : Document} {name : Text} {entry : Text × Value}
    (h : FieldRule.apply data ⟨name, integerField, none⟩ = .ok entry) :
    ∃ n, entry = (name, .int n) := by
  obtain ⟨v, w, -, hw, rfl⟩ := required h
  obtain ⟨n, rfl⟩ := integerField_eq_ok hw
  exact ⟨n, rfl⟩

/-- A required field for a text has one. -/
theorem text_of_apply {data : Document} {name : Text} {entry : Text × Value}
    (h : FieldRule.apply data ⟨name, textField, none⟩ = .ok entry) :
    ∃ t, entry = (name, .text t) := by
  obtain ⟨v, w, -, hw, rfl⟩ := required h
  obtain ⟨t, -, rfl⟩ := exists_of_map_eq_ok hw
  exact ⟨t, rfl⟩

/-- A field for an integer that need not be set has one or null. -/
theorem optionalInteger_of_apply {data : Document} {name : Text} {entry : Text × Value}
    (h : FieldRule.apply data ⟨name, optionalIntegerField, some .null⟩ = .ok entry) :
    ∃ n, entry = (name, .ofOptionalInt n) := by
  obtain ⟨w, rfl, hnone | ⟨v, -, hw⟩⟩ := FieldRule.apply_eq_ok h
  · cases hnone
    exact ⟨none, rfl⟩
  · obtain ⟨n, rfl⟩ := optionalIntegerField_eq_ok hw
    exact ⟨n, rfl⟩

/-- The items of a list that was read were read one by one. -/
theorem readItems_eq_ok {read : Value → Reading Value} {items xs : List Value} {position : Nat}
    (h : List.Forall₂ (fun reading x => reading = .ok x) (readItems read position items) xs) :
    List.Forall₂ (fun v x => read v = .ok x) items xs := by
  induction items generalizing position xs with
  | nil =>
      cases h
      exact .nil
  | cons v rest ih =>
      cases h with
      | cons hv hrest => exact .cons (Reading.under_eq_ok hv) (ih hrest)

section

variable {ι : Type} {read : Value → Reading Value} {entity : ι → Value}
  (hread : ∀ v w, v.recordless = true → read v = .ok w →
    ∃ x, w = entity x)

include hread

theorem entities_of_read {items xs : List Value}
    (hfree : everywhereInItems (fun v => !v.isRecord) items = true)
    (h : List.Forall₂ (fun v x => read v = .ok x) items xs) : ∃ ys, xs = List.map entity ys := by
  induction h with
  | nil => exact ⟨[], rfl⟩
  | cons hv _ ih =>
      simp only [everywhereInItems, Bool.and_eq_true] at hfree
      obtain ⟨y, rfl⟩ := hread _ _ hfree.1 hv
      obtain ⟨ys, rfl⟩ := ih hfree.2
      exact ⟨y :: ys, rfl⟩

/-- What was read as a list is a list of entities, when there was no record in it. -/
theorem listField_eq_ok (hfree : v.recordless = true) (h : listField read v = .ok w) :
    ∃ xs, w = .list (List.map entity xs) := by
  have hsequence : ∀ items, everywhereInItems (fun v => !v.isRecord) items = true →
      (Reading.gather (readItems read 0 items)).map .list = .ok w →
      ∃ xs, w = .list (List.map entity xs) := by
    intro items hitems hmap
    obtain ⟨ws, hws, rfl⟩ := exists_of_map_eq_ok hmap
    obtain ⟨xs, rfl⟩ := entities_of_read hread hitems (readItems_eq_ok (Reading.gather_eq_ok hws))
    exact ⟨xs, rfl⟩
  cases v with
  | list items => exact hsequence items hfree h
  | tuple items => exact hsequence items hfree h
  | record kind fields => cases hfree
  | _ => cases h

/-- A field for a list of entities has one, which is empty when the field is absent. -/
theorem list_of_apply {data : Document} {name : Text} {entry : Text × Value}
    (hfree : recordFree data = true)
    (h : FieldRule.apply data ⟨name, listField read, some (.list [])⟩ = .ok entry) :
    ∃ xs, entry = (name, .list (List.map entity xs)) := by
  obtain ⟨w, rfl, hnone | ⟨v, hv, hw⟩⟩ := FieldRule.apply_eq_ok h
  · cases hnone
    exact ⟨[], rfl⟩
  · obtain ⟨xs, rfl⟩ := listField_eq_ok hread (everywhere_of_get? hfree hv) hw
    exact ⟨xs, rfl⟩

end

/-- What was read as an entity comes from an object, when it was no record. -/
theorem entityField_eq_ok {kind : Kind} {rules : List FieldRule}
    (hfree : v.recordless = true) (h : entityField kind rules v = .ok w) :
    ∃ data fields, recordFree data = true ∧ readFields rules data = .ok fields ∧
      w = .record kind fields := by
  cases v with
  | object data =>
      obtain ⟨fields, hfields, rfl⟩ := exists_of_map_eq_ok h
      exact ⟨data, fields, hfree, hfields, rfl⟩
  | record other fields => cases hfree
  | _ => cases h

end Value

/-! ## The entities -/

theorem User.of_readFields {data fields : Document} (h : readFields userRules data = .ok fields) :
    ∃ u : User, fields = u.fields := by
  obtain _ | ⟨hid, _ | ⟨hname, _ | ⟨hage, _ | ⟨hfriend, _ | _⟩⟩⟩⟩ := readFields_eq_ok h
  obtain ⟨id, rfl⟩ := Value.integer_of_apply hid
  obtain ⟨name, rfl⟩ := Value.text_of_apply hname
  obtain ⟨age, rfl⟩ := Value.optionalInteger_of_apply hage
  obtain ⟨friend, rfl⟩ := Value.text_of_apply hfriend
  exact ⟨⟨id, name, age, friend⟩, rfl⟩

theorem Right.of_read {v w : Value} (hfree : v.recordless = true)
    (h : entityField .right rightRules v = .ok w) : ∃ r : Right, w = r.toValue := by
  obtain ⟨data, fields, hdata, hfields, rfl⟩ := Value.entityField_eq_ok hfree h
  obtain _ | ⟨hright, _ | ⟨huser, _ | _⟩⟩ := readFields_eq_ok hfields
  obtain ⟨right, rfl⟩ := Value.text_of_apply hright
  obtain ⟨v, w, hv, hw, rfl⟩ := Value.required huser
  obtain ⟨_, _, -, hsnapshot, rfl⟩ :=
    Value.entityField_eq_ok (Value.everywhere_of_get? hdata hv) hw
  obtain ⟨u, rfl⟩ := User.of_readFields hsnapshot
  exact ⟨⟨right, u⟩, rfl⟩

theorem RoleGrant.of_read {v w : Value} (hfree : v.recordless = true)
    (h : entityField .roleGrant roleGrantRules v = .ok w) : ∃ g : RoleGrant, w = g.toValue := by
  obtain ⟨data, fields, -, hfields, rfl⟩ := Value.entityField_eq_ok hfree h
  obtain _ | ⟨hrole, _ | ⟨hdb, _ | _⟩⟩ := readFields_eq_ok hfields
  obtain ⟨role, rfl⟩ := Value.text_of_apply hrole
  obtain ⟨db, rfl⟩ := Value.text_of_apply hdb
  exact ⟨⟨role, db⟩, rfl⟩

theorem Kind.read_eq_ok {kind : Kind} {data : Document} {v : Value} (h : kind.read data = .ok v) :
    ∃ fields, readFields kind.rules data = .ok fields ∧ v = .record kind fields := by
  unfold Kind.read at h
  split at h
  case h_1 fields hfields =>
    cases h
    exact ⟨fields, hfields, rfl⟩
  case h_2 => cases h

theorem App.of_read {data : Document} {v : Value} (hfree : Value.recordFree data = true)
    (h : Kind.read .app data = .ok v) : ∃ a : App, v = a.toValue := by
  obtain ⟨fields, hfields, rfl⟩ := Kind.read_eq_ok h
  obtain _ | ⟨hid, _ | ⟨hname, _ | ⟨hstars, _ | ⟨hrights, _ | _⟩⟩⟩⟩ := readFields_eq_ok hfields
  obtain ⟨id, rfl⟩ := Value.integer_of_apply hid
  obtain ⟨name, rfl⟩ := Value.text_of_apply hname
  obtain ⟨stars, rfl⟩ := Value.integer_of_apply hstars
  obtain ⟨rights, rfl⟩ := Value.list_of_apply (fun _ _ => Right.of_read) hfree hrights
  exact ⟨⟨id, name, stars, rights⟩, rfl⟩

theorem DatabaseUser.of_read {data : Document} {v : Value} (hfree : Value.recordFree data = true)
    (h : Kind.read .databaseUser data = .ok v) : ∃ p : DatabaseUser, v = p.toValue := by
  obtain ⟨fields, hfields, rfl⟩ := Kind.read_eq_ok h
  obtain _ | ⟨huser, _ | ⟨hpwd, _ | ⟨hroles, _ | _⟩⟩⟩ := readFields_eq_ok hfields
  obtain ⟨user, rfl⟩ := Value.text_of_apply huser
  obtain ⟨pwd, rfl⟩ := Value.text_of_apply hpwd
  obtain ⟨roles, rfl⟩ := Value.list_of_apply (fun _ _ => RoleGrant.of_read) hfree hroles
  exact ⟨⟨user, pwd, roles⟩, rfl⟩

/-- **What is read from data is an entity**: data that are accepted as an app, a user or
a database user, and have no record in them, are read as the record of one. -/
theorem Kind.read_entity {data : Document} (hfree : Value.recordFree data = true) :
    (∀ v, Kind.read .app data = .ok v → ∃ a : App, v = a.toValue) ∧
    (∀ v, Kind.read .user data = .ok v → ∃ u : User, v = u.toValue) ∧
    ∀ v, Kind.read .databaseUser data = .ok v → ∃ p : DatabaseUser, v = p.toValue := by
  refine ⟨fun _ => App.of_read hfree, ?_, fun _ => DatabaseUser.of_read hfree⟩
  intro v h
  obtain ⟨fields, hfields, rfl⟩ := Kind.read_eq_ok h
  obtain ⟨u, rfl⟩ := User.of_readFields hfields
  exact ⟨u, rfl⟩

/-! ## Changed entities keep their fields -/

namespace Entries

variable {α : Type}

theorem map_fst_put {name : Text} {old : α} {entries : Entries α} (h : get? name entries = some old)
    (new : α) : (put name new entries).map Prod.fst = entries.map Prod.fst := by
  induction entries with
  | nil => cases h
  | cons entry rest ih =>
      by_cases hname : entry.1 = name
      · simp [put, hname]
      · simp only [get?, hname, if_false] at h
        simp [put, hname, ih h]

theorem exists_get?_of_mem {name : Text} {entries : Entries α}
    (h : name ∈ entries.map Prod.fst) : ∃ v, get? name entries = some v := by
  induction entries with
  | nil => cases h
  | cons entry rest ih =>
      by_cases hname : entry.1 = name
      · exact ⟨entry.2, by simp [get?, hname]⟩
      · have hrest : name ∈ rest.map Prod.fst := by simpa [Ne.symm hname] using h
        simpa [get?, hname] using ih hrest

/-- An entry that is kept and changed is found as it was changed. -/
theorem get?_filter_map {β : Type} {name : Text} {keep : Text → Bool} (hkeep : keep name = true)
    (change : Text → α → β) (entries : Entries α) :
    get? name ((entries.filter fun e => keep e.1).map fun e => (e.1, change e.1 e.2)) =
      (get? name entries).map (change name) := by
  induction entries with
  | nil => rfl
  | cons entry rest ih =>
      by_cases hname : entry.1 = name
      · simp [get?, hname, hkeep]
      · by_cases hentry : keep entry.1 = true
        · simpa [get?, hname, hentry] using ih
        · simpa [get?, hname, hentry] using ih

/-- A name that is not among the first entries is looked up behind them. -/
theorem get?_append_of_not_mem {name : Text} {front : Entries α}
    (h : name ∉ front.map Prod.fst) (back : Entries α) :
    get? name (front ++ back) = get? name back := by
  induction front with
  | nil => rfl
  | cons entry rest ih =>
      rw [List.map_cons, List.mem_cons, not_or] at h
      rw [List.cons_append, get?, if_neg (Ne.symm h.1), ih h.2]

end Entries

namespace Value

/-- A record has the fields of its kind, whatever they hold. -/
def Formed : Value → Prop
  | .record kind fields => fields.map Prod.fst = kind.rules.map FieldRule.name
  | _ => True

variable {v w : Value}

/-- What was read has the fields of its kind. -/
theorem formed_of_read {kind : Kind} {data : Document} (h : kind.read data = .ok v) : v.Formed := by
  obtain ⟨fields, hfields, rfl⟩ := Kind.read_eq_ok h
  have hnames : ∀ rules entries, List.Forall₂
      (fun rule entry => FieldRule.apply data rule = .ok entry) rules entries →
        entries.map Prod.fst = rules.map FieldRule.name := by
    intro rules entries hentries
    induction hentries with
    | nil => rfl
    | cons hentry _ ih =>
        obtain ⟨w, rfl, -⟩ := FieldRule.apply_eq_ok hentry
        exact congrArg _ ih
  exact hnames _ _ (readFields_eq_ok hfields)

theorem Formed.assignTo (hv : v.Formed) {target : AssignmentTarget} {new : Value}
    (h : v.assignTo target new = .ok w) : w.Formed := by
  cases target with
  | field name =>
      cases v with
      | record kind fields =>
          cases hget : Entries.get? name fields with
          | none => simp [Value.assignTo, hget] at h
          | some old =>
              simp only [Value.assignTo, hget, Except.ok.injEq] at h
              rw [← h]
              exact (Entries.map_fst_put hget new).trans hv
      | _ => cases h
  | item i =>
      cases v with
      | list vs =>
          simp only [Value.assignTo] at h
          split at h <;> cases h
          trivial
      | _ => cases h
  | append =>
      cases v with
      | list vs =>
          cases h
          trivial
      | _ => cases h

theorem Formed.changeAt (hv : v.Formed) {step : AccessStep}
    {change : Value → Except Failure Value} (h : v.changeAt step change = .ok w) : w.Formed := by
  cases step with
  | field name =>
      cases v with
      | record kind fields =>
          cases hget : Entries.get? name fields with
          | none => simp [Value.changeAt, hget] at h
          | some old =>
              simp only [Value.changeAt, hget] at h
              obtain ⟨new, -, rfl⟩ := exists_of_map_eq_ok h
              exact (Entries.map_fst_put hget new).trans hv
      | _ => cases h
  | item i =>
      cases v with
      | list vs =>
          simp only [Value.changeAt] at h
          split at h
          · obtain ⟨items, -, rfl⟩ := exists_of_map_eq_ok h
            trivial
          · cases h
      | tuple vs =>
          simp only [Value.changeAt] at h
          split at h
          · obtain ⟨items, -, rfl⟩ := exists_of_map_eq_ok h
            trivial
          · cases h
      | _ => cases h

theorem Formed.assign (hv : v.Formed) {a : Assignment} (h : v.assign a = .ok w) : w.Formed := by
  unfold Value.assign at h
  cases hway : a.way with
  | nil =>
      rw [hway] at h
      exact hv.assignTo h
  | cons step way =>
      rw [hway] at h
      exact hv.changeAt h

/-- Assignments leave a record the fields of its kind. -/
theorem Formed.assignAll (hv : v.Formed) {assignments : List Assignment}
    (h : v.assignAll assignments = .ok w) : w.Formed := by
  induction assignments generalizing v with
  | nil =>
      cases h
      exact hv
  | cons a rest ih =>
      cases hfirst : v.assign a with
      | error f =>
          rw [Value.assignAll, hfirst] at h
          cases h
      | ok changed =>
          rw [Value.assignAll, hfirst] at h
          exact ih (hv.assign hfirst) h

/-- A value with a document has an identifier, whatever it is. -/
theorem Formed.member_id (hv : v.Formed) {doc : Document} (h : v.toDocument = .ok doc) :
    ∃ id, v.member "id" = .ok id := by
  cases v with
  | record kind fields =>
      have hid : Text.ofString "id" ∈ fields.map Prod.fst := by
        rw [show fields.map Prod.fst = kind.rules.map FieldRule.name from hv]
        cases kind with
        | app => exact List.mem_cons_self
        | user => exact List.mem_cons_self
        | userSnapshot => exact List.mem_cons_self
        | _ => cases h
      obtain ⟨id, hget⟩ := Entries.exists_get?_of_mem hid
      exact ⟨id, by simp [Value.member, hget]⟩
  | _ => cases h

end Value

end InitialLoad
