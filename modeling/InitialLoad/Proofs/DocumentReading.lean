import InitialLoad.Entity.Reading
import InitialLoad.Proofs.Documents
import Mathlib.Data.List.Forall2

/-!
# Reading documents back

Data describe an entity when they have its fields under their names, a field
that is not set being absent.  Data that describe an entity are read as that
entity, whatever else they hold at any depth, and the document of an entity
describes it.  So nothing is lost between an entity and its document.
-/

namespace InitialLoad

namespace Reading

variable {α : Type}

/-- Parts that were all read are read together. -/
theorem gather_ok (xs : List α) : gather (xs.map .ok) = .ok xs := by
  induction xs with
  | nil => rfl
  | cons x rest ih => simp [gather, ih]

end Reading

/-- The items of a list are read one by one. -/
theorem Value.readItems_of_forall₂ {ι : Type} {read : Value → Reading Value} {entity : ι → Value}
    {describes : ι → Value → Prop} (hread : ∀ x v, describes x v → read v = .ok (entity x))
    {xs : List ι} {items : List Value} (h : List.Forall₂ describes xs items) (position : Nat) :
    readItems read position items = (xs.map entity).map .ok := by
  induction h generalizing position with
  | nil => rfl
  | cons hx _ ih => simp [readItems, hread _ _ hx, Reading.under, ih]

namespace FieldRule

variable {data : Document} {v w : Value}

/-- A field that is there and can be read. -/
theorem apply_present {rule : FieldRule} (hdata : Entries.get? rule.name data = some v)
    (hread : rule.read v = .ok w) : rule.apply data = .ok (rule.name, w) := by
  unfold apply
  rw [hdata]
  simp [hread, Reading.under, Except.map]

/-- A field that is absent and has a stand-in. -/
theorem apply_absent {rule : FieldRule} (hdata : Entries.get? rule.name data = none)
    (hstandIn : rule.standIn = some v) : rule.apply data = .ok (rule.name, v) := by
  unfold apply
  rw [hdata]
  simp [hstandIn]

end FieldRule

/-! ## Users -/

/-- The data have the fields of the user. -/
structure User.DescribedBy (u : User) (data : Document) : Prop where
  id : Entries.get? "id" data = some (.int u.id)
  name : Entries.get? "name" data = some (.text u.name)
  age : Entries.get? "age" data = u.age.map .int
  friend : Entries.get? "friend" data = some (.text u.friend)

/-- Data that describe a user are read as its fields. -/
theorem User.DescribedBy.readFields {u : User} {data : Document} (h : u.DescribedBy data) :
    readFields userRules data = .ok u.fields := by
  have hid : FieldRule.apply data ⟨"id", Value.integerField, none⟩ = .ok ("id", .int u.id) :=
    FieldRule.apply_present h.id rfl
  have hname : FieldRule.apply data ⟨"name", Value.textField, none⟩ = .ok ("name", .text u.name) :=
    FieldRule.apply_present h.name rfl
  have hage : FieldRule.apply data ⟨"age", Value.optionalIntegerField, some .null⟩ =
      .ok ("age", .ofOptionalInt u.age) := by
    have hdata := h.age
    cases hu : u.age with
    | none =>
        rw [hu] at hdata
        exact FieldRule.apply_absent hdata rfl
    | some n =>
        rw [hu] at hdata
        exact FieldRule.apply_present hdata rfl
  have hfriend : FieldRule.apply data ⟨"friend", Value.textField, none⟩ =
      .ok ("friend", .text u.friend) := FieldRule.apply_present h.friend rfl
  have hall := Reading.gather_ok u.fields
  simp only [User.fields, List.map_cons, List.map_nil] at hall
  simp only [InitialLoad.readFields, userRules, List.map_cons, List.map_nil, hid, hname, hage,
    hfriend]
  exact hall

theorem User.describedBy_document (u : User) : u.DescribedBy u.document := by
  rcases u with ⟨id, name, age, friend⟩
  cases age <;> exact ⟨rfl, rfl, rfl, rfl⟩

/-! ## Rights -/

/-- The value is an object with the fields of the right. -/
def Right.DescribedBy (r : Right) (v : Value) : Prop :=
  ∃ data user, v = .object data ∧ Entries.get? "right" data = some (.text r.right) ∧
    Entries.get? "user" data = some (.object user) ∧ r.user.DescribedBy user

/-- An object that describes a right is read as that right. -/
theorem Right.DescribedBy.read {r : Right} {v : Value} (h : r.DescribedBy v) :
    entityField .right rightRules v = .ok r.toValue := by
  obtain ⟨data, user, rfl, hright, huser, hdescribed⟩ := h
  have hright : FieldRule.apply data ⟨"right", Value.textField, none⟩ =
      .ok ("right", .text r.right) := FieldRule.apply_present hright rfl
  have hsnapshot : entityField .userSnapshot userRules (.object user) = .ok r.user.toSnapshot := by
    rw [entityField, hdescribed.readFields]
    rfl
  have huser : FieldRule.apply data ⟨"user", entityField .userSnapshot userRules, none⟩ =
      .ok ("user", r.user.toSnapshot) := FieldRule.apply_present huser hsnapshot
  simp only [entityField, readFields, rightRules, List.map_cons, List.map_nil, hright, huser]
  rfl

theorem Right.describedBy_document (r : Right) : r.DescribedBy r.document :=
  ⟨_, _, rfl, rfl, rfl, r.user.describedBy_document⟩

/-! ## Apps -/

/-- The data have the fields of the app. -/
structure App.DescribedBy (a : App) (data : Document) : Prop where
  id : Entries.get? "id" data = some (.int a.id)
  name : Entries.get? "name" data = some (.text a.name)
  stars : Entries.get? "stars" data = some (.int a.stars)
  rights : a.rights = [] ∧ Entries.get? "rights" data = none ∨
    ∃ items, Entries.get? "rights" data = some (.list items) ∧
      List.Forall₂ Right.DescribedBy a.rights items

/-- Data that describe an app are read as that app. -/
theorem App.DescribedBy.read {a : App} {data : Document} (h : a.DescribedBy data) :
    Kind.read .app data = .ok a.toValue := by
  have hid : FieldRule.apply data ⟨"id", Value.integerField, none⟩ = .ok ("id", .int a.id) :=
    FieldRule.apply_present h.id rfl
  have hname : FieldRule.apply data ⟨"name", Value.textField, none⟩ = .ok ("name", .text a.name) :=
    FieldRule.apply_present h.name rfl
  have hstars : FieldRule.apply data ⟨"stars", Value.integerField, none⟩ =
      .ok ("stars", .int a.stars) := FieldRule.apply_present h.stars rfl
  have hrights : FieldRule.apply data
      ⟨"rights", Value.listField (entityField .right rightRules), some (.list [])⟩ =
        .ok ("rights", .list (a.rights.map Right.toValue)) := by
    rcases h.rights with ⟨hnone, hdata⟩ | ⟨items, hdata, hitems⟩
    · rw [hnone]
      exact FieldRule.apply_absent hdata rfl
    · refine FieldRule.apply_present hdata ?_
      have hread := Value.readItems_of_forall₂ (fun _ _ hr => Right.DescribedBy.read hr) hitems 0
      show (Reading.gather (Value.readItems _ 0 items)).map Value.list = _
      rw [hread, Reading.gather_ok]
      rfl
  simp only [Kind.read, Kind.rules, readFields, appRules, List.map_cons, List.map_nil, hid, hname,
    hstars, hrights]
  rfl

theorem App.describedBy_document (a : App) : a.DescribedBy a.document := by
  refine ⟨rfl, rfl, rfl, ?_⟩
  unfold App.document
  split
  · exact Or.inl ⟨by assumption, rfl⟩
  · refine Or.inr ⟨_, rfl, ?_⟩
    rw [List.forall₂_map_right_iff]
    exact List.forall₂_same.mpr fun r _ => r.describedBy_document

/-- Data that describe a user are read as that user. -/
theorem User.DescribedBy.read {u : User} {data : Document} (h : u.DescribedBy data) :
    Kind.read .user data = .ok u.toValue := by
  rw [Kind.read, Kind.rules, h.readFields]
  rfl

end InitialLoad
