import InitialLoad.Proofs.FaultReports
import InitialLoad.Proofs.ReadYourWrites

/-!
# The declared shape of data

What data have to look like to be accepted as an app or as a user is said here without a
word about how they are read: `App.Valid` and `User.Valid` for the shape, `App.Faulty` and
`User.Faulty` for the faults, `App.Alike` and `User.Alike` for data that differ only in
keys that are no fields.  The rules for single values are those of `Value.readInteger` and
`Value.readText`.

Reading accepts exactly the shape and reports exactly the faults, in order, each place
once; and since an entity is read from the first document that matches its identifier,
asking for it is refused as invalid exactly when that document does not have the shape.
-/

namespace InitialLoad

open Reading

/-! ## Single values -/

namespace Value

/-- The value passes for an integer. -/
def IsInteger (v : Value) : Prop := ∃ n, v.readInteger = .ok n

/-- The value passes for a text. -/
def IsText (v : Value) : Prop := ∃ t, v.readText = .ok t

end Value

/-- The reading of a single value is refused for this reason. -/
def Reading.Refused {α : Type} (reading : Reading α) (fault : Fault) : Prop :=
  ∃ reason, reading = refuse reason ∧ fault = ⟨[], reason⟩

namespace Value

/-- A fault of a value that should be an integer. -/
def IntegerFault (v : Value) : Fault → Prop := v.readInteger.Refused

/-- A fault of a value that should be an integer or null. -/
def OptionalIntegerFault (v : Value) (fault : Fault) : Prop := v ≠ .null ∧ v.IntegerFault fault

/-- A fault of a value that should be a text. -/
def TextFault (v : Value) : Fault → Prop := v.readText.Refused

end Value

/-! ## The shape -/

/-- The value is an entity of the kind, or an object with valid data of one. -/
inductive Kind.Fits (kind : Kind) (valid : Document → Prop) : Value → Prop where
  | entity {fields : Document} : Fits kind valid (.record kind fields)
  | object {data : Document} : valid data → Fits kind valid (.object data)

/-- The value is a list or tuple of valid items.  An entity counts as the list of its fields,
each a pair of a name and a value. -/
inductive Value.ListOf (valid : Value → Prop) : Value → Prop where
  | list {items : List Value} : (∀ v ∈ items, valid v) → ListOf valid (.list items)
  | tuple {items : List Value} : (∀ v ∈ items, valid v) → ListOf valid (.tuple items)
  | entity {kind : Kind} {fields : Document} : (∀ v ∈ pairs fields, valid v) →
      ListOf valid (.record kind fields)

/-- The data have the shape of a user. -/
structure User.Valid (data : Document) : Prop where
  id : ∃ v, Entries.get? "id" data = some v ∧ v.IsInteger
  name : ∃ v, Entries.get? "name" data = some v ∧ v.IsText
  age : ∀ v, Entries.get? "age" data = some v → v = .null ∨ v.IsInteger
  friend : ∃ v, Entries.get? "friend" data = some v ∧ v.IsText

/-- The data have the shape of a right; its user is a copy, and no user of its own. -/
structure Right.Valid (data : Document) : Prop where
  right : ∃ v, Entries.get? "right" data = some v ∧ v.IsText
  user : ∃ v, Entries.get? "user" data = some v ∧ Kind.Fits .userSnapshot User.Valid v

/-- The data have the shape of an app. -/
structure App.Valid (data : Document) : Prop where
  id : ∃ v, Entries.get? "id" data = some v ∧ v.IsInteger
  name : ∃ v, Entries.get? "name" data = some v ∧ v.IsText
  stars : ∃ v, Entries.get? "stars" data = some v ∧ v.IsInteger
  rights : ∀ v, Entries.get? "rights" data = some v →
    Value.ListOf (Kind.Fits .right Right.Valid) v

/-! ## The faults -/

/-- A fault in the data of a user. -/
def User.Faulty (data : Document) (fault : Fault) : Prop :=
  FieldFault "id" true Value.IntegerFault data fault ∨
  FieldFault "name" true Value.TextFault data fault ∨
  FieldFault "age" false Value.OptionalIntegerFault data fault ∨
  FieldFault "friend" true Value.TextFault data fault

/-- A fault in the data of a right. -/
def Right.Faulty (data : Document) (fault : Fault) : Prop :=
  FieldFault "right" true Value.TextFault data fault ∨
  FieldFault "user" true (EntityFault .userSnapshot User.Faulty) data fault

/-- A fault in the data of an app. -/
def App.Faulty (data : Document) (fault : Fault) : Prop :=
  FieldFault "id" true Value.IntegerFault data fault ∨
  FieldFault "name" true Value.TextFault data fault ∨
  FieldFault "stars" true Value.IntegerFault data fault ∨
  FieldFault "rights" false (ListFault (EntityFault .right Right.Faulty)) data fault

/-! ## Data that differ in other keys -/

/-- The same value, or objects whose data are alike. -/
inductive Value.ObjectsAlike (alike : Document → Document → Prop) : Value → Value → Prop where
  | same {v : Value} : ObjectsAlike alike v v
  | object {data other : Document} : alike data other →
      ObjectsAlike alike (.object data) (.object other)

/-- The same value, or lists whose items are alike one by one. -/
inductive Value.ListsAlike (alike : Value → Value → Prop) : Value → Value → Prop where
  | same {v : Value} : ListsAlike alike v v
  | list {items others : List Value} : List.Forall₂ alike items others →
      ListsAlike alike (.list items) (.list others)
  | tuple {items others : List Value} : List.Forall₂ alike items others →
      ListsAlike alike (.tuple items) (.tuple others)

/-- The fields of a user are the same. -/
def User.Alike (data other : Document) : Prop :=
  ∀ name ∈ [Text.ofString "id", "name", "age", "friend"],
    Entries.get? name data = Entries.get? name other

/-- The fields of a right are the same, but for keys that are no fields of its user. -/
structure Right.Alike (data other : Document) : Prop where
  right : Entries.get? "right" data = Entries.get? "right" other
  user : Option.Rel (Value.ObjectsAlike User.Alike) (Entries.get? "user" data)
    (Entries.get? "user" other)

/-- The fields of an app are the same, but for keys that are no fields of its rights or of
their users. -/
structure App.Alike (data other : Document) : Prop where
  fields : ∀ name ∈ [Text.ofString "id", "name", "stars"],
    Entries.get? name data = Entries.get? name other
  rights : Option.Rel (Value.ListsAlike (Value.ObjectsAlike Right.Alike))
    (Entries.get? "rights" data) (Entries.get? "rights" other)

/-! ## Reading reports exactly the faults -/

namespace Value

variable {α : Type}

/-- A single value is read or refused with one reason. -/
theorem reports_of_single {reading : Reading α}
    (h : (∃ a, reading = .ok a) ∨ ∃ reason, reading = refuse reason) :
    reading.Reports reading.Refused := by
  obtain ⟨a, rfl⟩ | ⟨reason, rfl⟩ := h
  · refine Reports.ok a ?_
    rintro _ ⟨_, heq, -⟩
    cases heq
  · refine (Reports.single _).congr fun fault => ⟨fun h => ⟨reason, rfl, h⟩, ?_⟩
    rintro ⟨_, heq, rfl⟩
    cases heq
    rfl

theorem integerOfText_single (t : Text) :
    (∃ n, integerOfText t = .ok n) ∨ ∃ reason, integerOfText t = refuse reason := by
  unfold integerOfText
  split
  · exact Or.inr ⟨_, rfl⟩
  · split
    · exact Or.inl ⟨_, rfl⟩
    · exact Or.inr ⟨_, rfl⟩
    · exact Or.inr ⟨_, rfl⟩

theorem integerOfDouble_single (d : Double) :
    (∃ n, integerOfDouble d = .ok n) ∨ ∃ reason, integerOfDouble d = refuse reason := by
  unfold integerOfDouble
  split
  · split
    · exact Or.inr ⟨_, rfl⟩
    · split
      · exact Or.inl ⟨_, rfl⟩
      · exact Or.inr ⟨_, rfl⟩
  · exact Or.inr ⟨_, rfl⟩

theorem readInteger_reports (v : Value) : v.readInteger.Reports v.IntegerFault := by
  refine reports_of_single ?_
  cases v with
  | bool b => exact Or.inl ⟨_, rfl⟩
  | int n => exact Or.inl ⟨_, rfl⟩
  | double d => exact integerOfDouble_single d
  | text t => exact integerOfText_single t
  | bytes b =>
      simp only [readInteger]
      cases Utf8.decode b with
      | ok t => exact integerOfText_single t
      | error _ => exact Or.inr ⟨_, rfl⟩
  | _ => exact Or.inr ⟨_, rfl⟩

theorem readText_reports (v : Value) : v.readText.Reports v.TextFault := by
  refine reports_of_single ?_
  cases v with
  | text t => exact Or.inl ⟨_, rfl⟩
  | bytes b =>
      simp only [readText]
      cases Utf8.decode b with
      | ok t => exact Or.inl ⟨_, rfl⟩
      | error _ => exact Or.inr ⟨_, rfl⟩
  | _ => exact Or.inr ⟨_, rfl⟩

theorem integerField_reports (v : Value) : v.integerField.Reports v.IntegerFault :=
  v.readInteger_reports.map Value.int

theorem textField_reports (v : Value) : v.textField.Reports v.TextFault :=
  v.readText_reports.map Value.text

theorem optionalIntegerField_reports (v : Value) :
    v.optionalIntegerField.Reports v.OptionalIntegerFault := by
  unfold optionalIntegerField
  split
  · exact Reports.ok _ fun _ h => h.1 rfl
  · exact v.integerField_reports.congr fun fault => (and_iff_right ‹_›).symm

end Value

/-- The fields of a user with their faults. -/
def userReports : List FieldReport :=
  [⟨⟨"id", Value.integerField, none⟩, Value.IntegerFault, Value.integerField_reports⟩,
   ⟨⟨"name", Value.textField, none⟩, Value.TextFault, Value.textField_reports⟩,
   ⟨⟨"age", Value.optionalIntegerField, some .null⟩, Value.OptionalIntegerFault,
     Value.optionalIntegerField_reports⟩,
   ⟨⟨"friend", Value.textField, none⟩, Value.TextFault, Value.textField_reports⟩]

theorem User.reports (data : Document) :
    (readFields userRules data).Reports (User.Faulty data) := by
  refine (readFields_reports userReports (Kind.names_ordered .user) data).congr fun fault => ?_
  simp [FieldReport.Faulty, userReports, User.Faulty]

/-- The fields of a right with their faults. -/
def rightReports : List FieldReport :=
  [⟨⟨"right", Value.textField, none⟩, Value.TextFault, Value.textField_reports⟩,
   ⟨⟨"user", entityField .userSnapshot userRules, none⟩, EntityFault .userSnapshot User.Faulty,
     entityField_reports User.reports⟩]

theorem Right.reports (data : Document) :
    (readFields rightRules data).Reports (Right.Faulty data) := by
  refine (readFields_reports rightReports (Kind.names_ordered .right) data).congr fun fault => ?_
  simp [FieldReport.Faulty, rightReports, Right.Faulty]

/-- The fields of an app with their faults. -/
def appReports : List FieldReport :=
  [⟨⟨"id", Value.integerField, none⟩, Value.IntegerFault, Value.integerField_reports⟩,
   ⟨⟨"name", Value.textField, none⟩, Value.TextFault, Value.textField_reports⟩,
   ⟨⟨"stars", Value.integerField, none⟩, Value.IntegerFault, Value.integerField_reports⟩,
   ⟨⟨"rights", Value.listField (entityField .right rightRules), some (.list [])⟩,
     ListFault (EntityFault .right Right.Faulty),
     Value.listField_reports (entityField_reports Right.reports)⟩]

theorem App.reports (data : Document) :
    (readFields appRules data).Reports (App.Faulty data) := by
  refine (readFields_reports appReports (Kind.names_ordered .app) data).congr fun fault => ?_
  simp [FieldReport.Faulty, appReports, App.Faulty]

/-! ## What has the shape has no fault -/

section

variable {name : Text} {inValue : Value → Fault → Prop} {valid : Value → Prop} {data : Document}

/-- A required field is without a fault when it is there with a valid value. -/
theorem required_valid_iff (h : ∀ v, valid v ↔ ∀ fault, ¬ inValue v fault) :
    (∃ v, Entries.get? name data = some v ∧ valid v) ↔
      ∀ fault, ¬ FieldFault name true inValue data fault := by
  constructor
  · rintro ⟨v, hv, hvalid⟩ _ (⟨-, hnone⟩ | ⟨hsome, hfault⟩)
    · rw [hv] at hnone
      cases hnone
    · rw [hv] at hsome
      cases hsome
      exact (h v).mp hvalid _ hfault
  · intro hnone
    cases hdata : Entries.get? name data with
    | none => exact absurd (.missing rfl hdata) (hnone _)
    | some v => exact ⟨v, rfl, (h v).mpr fun fault hfault => hnone _ (.inside hdata hfault)⟩

/-- A field that need not be there is without a fault when a value that is there is valid. -/
theorem optional_valid_iff (h : ∀ v, valid v ↔ ∀ fault, ¬ inValue v fault) :
    (∀ v, Entries.get? name data = some v → valid v) ↔
      ∀ fault, ¬ FieldFault name false inValue data fault := by
  constructor
  · rintro hvalid _ (⟨hrequired, -⟩ | ⟨hsome, hfault⟩)
    · cases hrequired
    · exact (h _).mp (hvalid _ hsome) _ hfault
  · intro hnone v hv
    exact (h v).mpr fun fault hfault => hnone _ (.inside hv hfault)

theorem items_valid_iff (h : ∀ v, valid v ↔ ∀ fault, ¬ inValue v fault) (items : List Value) :
    (∀ v ∈ items, valid v) ↔ ∀ fault, ¬ ItemFault inValue 0 items fault := by
  constructor
  · rintro hvalid _ ⟨hitem, hfault⟩
    exact (h _).mp (hvalid _ (List.mem_of_getElem? hitem)) _ hfault
  · intro hnone v hv
    obtain ⟨i, hi⟩ := List.mem_iff_getElem?.mp hv
    exact (h v).mpr fun fault hfault => hnone _ (.inside hi hfault)

theorem listOf_iff (h : ∀ v, valid v ↔ ∀ fault, ¬ inValue v fault) (v : Value) :
    Value.ListOf valid v ↔ ∀ fault, ¬ ListFault inValue v fault := by
  constructor
  · rintro (hitems | hitems | hitems) _ (hfault | hfault | hfault | ⟨hlist, htuple, hentity⟩)
    · exact (items_valid_iff h _).mp hitems _ hfault
    · exact hlist _ rfl
    · exact (items_valid_iff h _).mp hitems _ hfault
    · exact htuple _ rfl
    · exact (items_valid_iff h _).mp hitems _ hfault
    · exact hentity _ _ rfl
  · intro hnone
    cases v with
    | list items => exact .list ((items_valid_iff h items).mpr fun _ hf => hnone _ (.list hf))
    | tuple items => exact .tuple ((items_valid_iff h items).mpr fun _ hf => hnone _ (.tuple hf))
    | record kind fields =>
        exact .entity ((items_valid_iff h _).mpr fun _ hf => hnone _ (.entity hf))
    | _ =>
        exact absurd (.other (fun _ h => nomatch h) (fun _ h => nomatch h) fun _ _ h => nomatch h)
          (hnone _)

theorem Kind.fits_iff {kind : Kind} {valid : Document → Prop} {inData : Document → Fault → Prop}
    (h : ∀ data, valid data ↔ ∀ fault, ¬ inData data fault) (v : Value) :
    Kind.Fits kind valid v ↔ ∀ fault, ¬ EntityFault kind inData v fault := by
  constructor
  · rintro (_ | hvalid) _ (hfault | ⟨hobject, hrecord⟩)
    · exact hrecord _ rfl
    · exact (h _).mp hvalid _ hfault
    · exact hobject _ rfl
  · intro hnone
    have hother : (∀ data, v ≠ .object data) → (∀ fields, v ≠ .record kind fields) → False :=
      fun hobject hrecord => hnone _ (.other hobject hrecord)
    cases v with
    | object data => exact .object ((h data).mpr fun _ hfault => hnone _ (.object hfault))
    | record k fields =>
        by_cases hkind : k = kind
        · subst hkind
          exact .entity
        · exact absurd (fun _ h => hkind (Value.record.inj h).1) (hother fun _ h => nomatch h)
    | _ => exact absurd (fun _ h => nomatch h) (hother fun _ h => nomatch h)

end

namespace Value

theorem isInteger_iff (v : Value) : v.IsInteger ↔ ∀ fault, ¬ v.IntegerFault fault :=
  v.readInteger_reports.accepts

theorem isText_iff (v : Value) : v.IsText ↔ ∀ fault, ¬ v.TextFault fault :=
  v.readText_reports.accepts

theorem null_or_isInteger_iff (v : Value) :
    (v = .null ∨ v.IsInteger) ↔ ∀ fault, ¬ v.OptionalIntegerFault fault := by
  by_cases hnull : v = .null
  · simp [OptionalIntegerFault, hnull]
  · simp [OptionalIntegerFault, hnull, isInteger_iff]

end Value

theorem User.valid_iff (data : Document) :
    User.Valid data ↔ ∀ fault, ¬ User.Faulty data fault := by
  simp only [User.Faulty, not_or, forall_and, ← required_valid_iff Value.isInteger_iff,
    ← required_valid_iff Value.isText_iff, ← optional_valid_iff Value.null_or_isInteger_iff]
  exact ⟨fun h => ⟨h.id, h.name, h.age, h.friend⟩, fun ⟨hid, hname, hage, hfriend⟩ =>
    ⟨hid, hname, hage, hfriend⟩⟩

theorem Right.valid_iff (data : Document) :
    Right.Valid data ↔ ∀ fault, ¬ Right.Faulty data fault := by
  simp only [Right.Faulty, not_or, forall_and, ← required_valid_iff Value.isText_iff,
    ← required_valid_iff (Kind.fits_iff User.valid_iff)]
  exact ⟨fun h => ⟨h.right, h.user⟩, fun ⟨hright, huser⟩ => ⟨hright, huser⟩⟩

theorem App.valid_iff (data : Document) :
    App.Valid data ↔ ∀ fault, ¬ App.Faulty data fault := by
  simp only [App.Faulty, not_or, forall_and, ← required_valid_iff Value.isInteger_iff,
    ← required_valid_iff Value.isText_iff,
    ← optional_valid_iff (listOf_iff (Kind.fits_iff Right.valid_iff))]
  exact ⟨fun h => ⟨h.id, h.name, h.stars, h.rights⟩, fun ⟨hid, hname, hstars, hrights⟩ =>
    ⟨hid, hname, hstars, hrights⟩⟩

/-! ## Other keys change nothing -/

section

variable {data other : Document}

/-- A field is read the same from values that are read the same. -/
theorem FieldRule.apply_congr {rule : FieldRule} {alike : Value → Value → Prop}
    (h : Option.Rel alike (Entries.get? rule.name data) (Entries.get? rule.name other))
    (hread : ∀ v w, alike v w → rule.read v = rule.read w) :
    rule.apply data = rule.apply other := by
  unfold FieldRule.apply
  generalize Entries.get? rule.name data = found at h
  generalize Entries.get? rule.name other = foundOther at h
  cases h with
  | some h => simp only [hread _ _ h]
  | none => rfl

/-- A field with the same value is read the same. -/
theorem FieldRule.apply_same {rule : FieldRule}
    (h : Entries.get? rule.name data = Entries.get? rule.name other) :
    rule.apply data = rule.apply other := by
  unfold FieldRule.apply
  rw [h]

theorem readFields_congr {rules : List FieldRule}
    (h : ∀ rule ∈ rules, FieldRule.apply data rule = FieldRule.apply other rule) :
    readFields rules data = readFields rules other :=
  congrArg gather (List.map_congr_left h)

theorem Value.ObjectsAlike.entityField_eq {alike : Document → Document → Prop}
    {rules : List FieldRule}
    (hread : ∀ data other, alike data other → readFields rules data = readFields rules other)
    (kind : Kind) {v w : Value} (h : Value.ObjectsAlike alike v w) :
    entityField kind rules v = entityField kind rules w := by
  cases h with
  | same => rfl
  | object h => rw [entityField, entityField, hread _ _ h]

theorem Value.ListsAlike.listField_eq {alike : Value → Value → Prop}
    {read : Value → Reading Value} (hread : ∀ v w, alike v w → read v = read w) {v w : Value}
    (h : Value.ListsAlike alike v w) : Value.listField read v = Value.listField read w := by
  have hitems : ∀ {items others : List Value}, List.Forall₂ alike items others →
      ∀ position, Value.readItems read position items = Value.readItems read position others := by
    intro items others hitems
    induction hitems with
    | nil => exact fun _ => rfl
    | cons hfirst _ ih =>
        intro position
        rw [Value.readItems, Value.readItems, hread _ _ hfirst, ih]
  cases h with
  | same => rfl
  | list h => rw [Value.listField, Value.listField, hitems h]
  | tuple h => rw [Value.listField, Value.listField, hitems h]

theorem User.Alike.readFields_eq (h : User.Alike data other) :
    readFields userRules data = readFields userRules other := by
  refine readFields_congr fun rule hrule => FieldRule.apply_same (h _ ?_)
  exact List.mem_map_of_mem hrule

theorem Right.Alike.readFields_eq (h : Right.Alike data other) :
    readFields rightRules data = readFields rightRules other := by
  refine readFields_congr fun rule hrule => ?_
  obtain rfl | rfl : rule = _ ∨ rule = _ := by simpa [rightRules] using hrule
  · exact FieldRule.apply_same h.right
  · exact FieldRule.apply_congr h.user fun v w hvw =>
      hvw.entityField_eq (fun _ _ => User.Alike.readFields_eq) .userSnapshot

theorem App.Alike.readFields_eq (h : App.Alike data other) :
    readFields appRules data = readFields appRules other := by
  refine readFields_congr fun rule hrule => ?_
  obtain rfl | rfl | rfl | rfl : rule = _ ∨ rule = _ ∨ rule = _ ∨ rule = _ := by
    simpa [appRules] using hrule
  · exact FieldRule.apply_same (h.fields _ (by simp))
  · exact FieldRule.apply_same (h.fields _ (by simp))
  · exact FieldRule.apply_same (h.fields _ (by simp))
  · refine FieldRule.apply_congr h.rights fun v w hvw => ?_
    exact hvw.listField_eq fun _ _ hitem =>
      hitem.entityField_eq (fun _ _ => Right.Alike.readFields_eq) .right

end

/-! ## Validation -/

/-- Reading a kind accepts exactly data of a shape, and otherwise lists every fault in
order, each place once; data that are alike are read alike. -/
structure Kind.ValidatedBy (kind : Kind) (valid : Document → Prop)
    (faulty : Document → Fault → Prop) (alike : Document → Document → Prop) : Prop where
  accepts : ∀ data, (∃ v, kind.read data = .ok v) ↔ valid data
  refuses : ∀ data f, kind.read data = .error f → ∃ faults,
    f = Failure.of (.invalid kind.name faults) ∧
      (∀ fault, fault ∈ faults ↔ faulty data fault) ∧
      faults.Pairwise Fault.Before ∧ (faults.map Fault.path).Nodup
  ignores : ∀ data other, alike data other → kind.read data = kind.read other

theorem Kind.validatedBy {kind : Kind} {valid : Document → Prop}
    {faulty : Document → Fault → Prop} {alike : Document → Document → Prop}
    (hreports : ∀ data, (readFields kind.rules data).Reports (faulty data))
    (hvalid : ∀ data, valid data ↔ ∀ fault, ¬ faulty data fault)
    (halike : ∀ data other, alike data other →
      readFields kind.rules data = readFields kind.rules other) :
    kind.ValidatedBy valid faulty alike where
  accepts := by
    intro data
    rw [hvalid, ← (hreports data).accepts]
    unfold Kind.read
    cases readFields kind.rules data with
    | ok fields => exact ⟨fun _ => ⟨_, rfl⟩, fun _ => ⟨_, rfl⟩⟩
    | error faults => exact ⟨fun ⟨_, h⟩ => (nomatch h), fun ⟨_, h⟩ => (nomatch h)⟩
  refuses := by
    intro data f h
    unfold Kind.read at h
    split at h
    case h_1 => cases h
    case h_2 faults hfaults =>
      cases h
      have hreport := hreports data
      exact ⟨faults, rfl, hreport.lists _ hfaults, hreport.ordered _ hfaults,
        hreport.nodup hfaults⟩
  ignores := by
    intro data other h
    rw [Kind.read, Kind.read, halike data other h]

theorem App.validatedBy : Kind.ValidatedBy .app App.Valid App.Faulty App.Alike :=
  Kind.validatedBy App.reports App.valid_iff fun _ _ => App.Alike.readFields_eq

theorem User.validatedBy : Kind.ValidatedBy .user User.Valid User.Faulty User.Alike :=
  Kind.validatedBy User.reports User.valid_iff fun _ _ => User.Alike.readFields_eq

/-- The identifier of the document is this number, or a list that has it as an item. -/
def MatchesId (n : Int) (doc : Document) : Prop :=
  ∃ v, Entries.get? "id" doc = some v ∧ (v.same (.int n) = true ∨
    ∃ items, v = .list items ∧ ∃ item ∈ items, item.same (.int n) = true)

theorem matchesId_iff (n : Int) (doc : Document) :
    MatchesId n doc ↔ fieldIs "id" (.int n) doc = true := by
  unfold MatchesId fieldIs
  cases Entries.get? "id" doc with
  | none => exact ⟨fun ⟨_, h, _⟩ => (nomatch h), fun h => (nomatch h)⟩
  | some v => cases v <;> simp [Value.isOrHas]

/-- The document is the first one of the collection that matches the identifier. -/
def Collection.FirstMatch (c : Collection) (n : Int) (doc : Document) : Prop :=
  ∃ before after, c.documents = before ++ doc :: after ∧ MatchesId n doc ∧
    ∀ earlier ∈ before, ¬ MatchesId n earlier

theorem Collection.firstMatch_iff {c : Collection} {n : Int} {doc : Document} :
    c.FirstMatch n doc ↔ c.find? "id" (.int n) = some doc := by
  rw [Collection.find?, List.find?_eq_some_iff_append]
  simp only [FirstMatch, matchesId_iff]
  constructor
  · rintro ⟨before, after, hdocuments, hdoc, hbefore⟩
    exact ⟨hdoc, before, after, hdocuments, fun a ha => by simp [hbefore a ha]⟩
  · rintro ⟨hdoc, before, after, hdocuments, hbefore⟩
    exact ⟨before, after, hdocuments, hdoc, fun a ha => by simpa using hbefore a ha⟩

/-- What was found is refused exactly when it is there and does not have the shape. -/
theorem Kind.ValidatedBy.readFound_refused {kind : Kind} {valid : Document → Prop}
    {faulty : Document → Fault → Prop} {alike : Document → Document → Prop}
    (h : kind.ValidatedBy valid faulty alike) (c : Collection) (n : Int) :
    (∃ faults, Seeding.readFound kind (c.find? "id" (.int n)) =
        .error (Failure.of (.invalid kind.name faults))) ↔
      ∃ doc, c.FirstMatch n doc ∧ ¬ valid doc := by
  simp only [Collection.firstMatch_iff, ← h.accepts]
  cases hfound : c.find? "id" (.int n) with
  | none => exact ⟨fun ⟨_, h⟩ => (nomatch h), fun ⟨_, h, _⟩ => (nomatch h)⟩
  | some doc =>
      cases hread : kind.read doc with
      | ok v =>
          refine ⟨fun ⟨_, h⟩ => ?_, fun ⟨_, hdoc, hinvalid⟩ => ?_⟩
          · rw [Seeding.readFound, hread] at h
            cases h
          · cases hdoc
            exact absurd ⟨v, hread⟩ hinvalid
      | error f =>
          obtain ⟨faults, rfl, -⟩ := h.refuses doc f hread
          refine ⟨fun _ => ⟨doc, rfl, fun ⟨v, hv⟩ => ?_⟩, fun _ => ⟨faults, ?_⟩⟩
          · rw [hread] at hv
            cases hv
          · rw [Seeding.readFound, hread]
            rfl

/-- A read is refused as invalid exactly when the number can be sent and the first
document that it matches does not have the shape. -/
theorem Kind.ValidatedBy.lookup_refused {kind : Kind} {valid : Document → Prop}
    {faulty : Document → Fault → Prop} {alike : Document → Document → Prop}
    (h : kind.ValidatedBy valid faulty alike) (place : Place) (n : Int) (s : Store)
    (clock : Clock) :
    (∃ faults, (Job.outcome Store.server (Seeding.lookup kind place (.int n)) s clock).result =
        .error (Failure.of (.invalid kind.name faults))) ↔
      Value.fitsEightBytes n = true ∧
        ∃ doc, (s.collection place).FirstMatch n doc ∧ ¬ valid doc := by
  cases hn : Value.fitsEightBytes n with
  | true =>
      rw [Seeding.lookup_written (Value.obstacle?_int hn), h.readFound_refused]
      exact (and_iff_right rfl).symm
  | false =>
      rw [Seeding.lookup_unwritten (Value.obstacle?_int_of_not_fits hn)]
      exact ⟨fun ⟨_, h⟩ => (nomatch h), fun h => (nomatch h.1)⟩

/-- **Validation accepts exactly the declared shape and reports every fault.**  Data are
accepted as an app, and as a user, exactly when they have the shape; keys that are no
fields change nothing at any level.  Data that are refused are refused with one entry for
each value that is missing or wrong and reached, at its place, in the order of the fields
and of list positions; a value of the wrong container type is one entry with none below
it, where an entity counts as the list of its fields, and no fault hides another.  So
asking for the app with a number is refused as invalid exactly when the number can be sent
and the first stored document that it matches does not have the shape, whoever wrote it,
and the same for users. -/
theorem declared_shape_validated :
    Kind.ValidatedBy .app App.Valid App.Faulty App.Alike ∧
    Kind.ValidatedBy .user User.Valid User.Faulty User.Alike ∧
    ∀ (database : Text) (n : Int) (s : Store) (clock : Clock),
      ((∃ faults, (Job.outcome Store.server (Seeding.getApp database (.int n)) s clock).result =
          .error (Failure.of (.invalid "App" faults))) ↔
        Value.fitsEightBytes n = true ∧
          ∃ doc, (s.collection (Seeding.appsOf database)).FirstMatch n doc ∧ ¬ App.Valid doc) ∧
      ((∃ faults, (Job.outcome Store.server (Seeding.getUser database (.int n)) s clock).result =
          .error (Failure.of (.invalid "User" faults))) ↔
        Value.fitsEightBytes n = true ∧
          ∃ doc, (s.collection (Seeding.usersOf database)).FirstMatch n doc ∧
            ¬ User.Valid doc) := by
  refine ⟨App.validatedBy, User.validatedBy, fun database n s clock => ⟨?_, ?_⟩⟩
  · exact App.validatedBy.lookup_refused (Seeding.appsOf database) n s clock
  · exact User.validatedBy.lookup_refused (Seeding.usersOf database) n s clock

/-- An app without stars whose name is a number.  Of its rights the first is an entity of
the kind, with nothing in it; the second is an object that lacks its label and has a user
of its own instead of a copy; the third is no right at all.  Stored under a list of two
identifiers it is found by either of them, and refused. -/
theorem declared_shape_validated_mixed :
    let right : Value := .object [("user", .record .user []), ("label", .text "OWNER")]
    let data : Document := [("rights", .tuple [.record .right [], right, .int 3]),
      ("name", .int 5), ("id", .text " 7 ")]
    let faults : List Fault := [⟨[.field "name"], .notText⟩, ⟨[.field "stars"], .missing⟩,
      ⟨[.field "rights", .item 1, .field "right"], .missing⟩,
      ⟨[.field "rights", .item 1, .field "user"], .notEntity .userSnapshot⟩,
      ⟨[.field "rights", .item 2], .notEntity .right⟩]
    let stored : Document := [("id", .list [.int 5, .int 6]), ("name", .text "App")]
    let s := Store.empty.setCollection (Seeding.appsOf "db") ⟨[stored], []⟩
    (∀ fault, fault ∈ faults ↔ App.Faulty data fault) ∧ ¬ App.Valid data ∧
      ∃ faults, (Job.outcome Store.server (Seeding.getApp "db" (.int 6)) s []).result =
        .error (Failure.of (.invalid "App" faults)) := by
  intro right data faults stored s
  obtain ⟨happs, -, hreads⟩ := declared_shape_validated
  have hread : Kind.read .app data = .error (Failure.of (.invalid "App" faults)) := rfl
  obtain ⟨listed, hlisted, hlists, -, -⟩ := happs.refuses data _ hread
  cases hlisted
  refine ⟨hlists, fun hvalid => ?_, ?_⟩
  · obtain ⟨v, hv⟩ := (happs.accepts data).mpr hvalid
    rw [hread] at hv
    cases hv
  · have hmatches : MatchesId 6 stored := ⟨_, rfl, Or.inr ⟨_, rfl, .int 6, by simp, rfl⟩⟩
    have hinvalid : ¬ App.Valid stored := by
      intro hvalid
      obtain ⟨v, hv, -⟩ := hvalid.stars
      cases hv
    have hfirst : (s.collection (Seeding.appsOf "db")).FirstMatch 6 stored :=
      ⟨[], [], rfl, hmatches, nofun⟩
    exact (hreads "db" 6 s []).1.mpr ⟨rfl, stored, hfirst, hinvalid⟩

/-- An app whose rights are a user, which is neither a list nor a tuple, is refused with
one entry for each field of the user, and with none for the rights themselves. -/
theorem entity_for_rights_refused_by_fields :
    let user : Value := User.toValue ⟨1, "Ada", some 30, "Bob"⟩
    let data : Document :=
      [("id", .int 7), ("name", .text "A"), ("stars", .int 1), ("rights", user)]
    (∀ items, user ≠ .list items) ∧ (∀ items, user ≠ .tuple items) ∧
      Kind.read .app data = .error (Failure.of (.invalid "App"
        [⟨[.field "rights", .item 0], .notEntity .right⟩,
         ⟨[.field "rights", .item 1], .notEntity .right⟩,
         ⟨[.field "rights", .item 2], .notEntity .right⟩,
         ⟨[.field "rights", .item 3], .notEntity .right⟩])) :=
  ⟨nofun, nofun, rfl⟩

end InitialLoad
