import InitialLoad.Proofs.EntityReading

/-!
# The documents of changed entities

An entity may hold anything once it has been changed without a check, and its document
is made of whatever it holds.  `Dumps` says what a value becomes there, by one rule for
each sort of value: an entity becomes an object without its null fields, at any depth,
while the null items of a list and the null entries of an object are data and stay, and
so do the order and the number of everything else.

Where an entity of some kind is declared, in the items of the rights of an app and in the
user of a right, whatever entity stands there instead is dumped by the declared fields and
loses the others.  And the limit of a dump counts: `depth` is how many levels a value goes
down without a declaration, and a value within the limit dumps to exactly one value
(`dumps_iff`).

Assignments leave an entity its kind and its fields, so the document of an app or of a user
that was changed in any way is the dump of those of its fields that hold something.  The
rights of an app are the one exception: they are left out when what they dump to is empty,
and there is no document when they are null.
-/

namespace InitialLoad

/-- The fields that hold something. -/
def setFields (fields : Document) : Document := fields.filter fun field => !field.2.isNull

theorem setFields_cons (name : Text) (v : Value) (rest : Document) :
    setFields ((name, v) :: rest) =
      if v.isNull then setFields rest else (name, v) :: setFields rest := by
  cases hv : v.isNull <;> simp [setFields, hv]

/-- What the items of a list are declared to hold. -/
def Declaration.item : Declaration → Declaration
  | .records kind => .record kind
  | _ => .other

/-- The kind by whose fields a record of some kind is dumped. -/
def Declaration.kindOf (kind : Kind) : Declaration → Kind
  | .record declared => declared
  | _ => kind

/-- A kind declares the fields that it is read by. -/
theorem Kind.declarations_names (kind : Kind) :
    kind.declarations.map Prod.fst = kind.rules.map FieldRule.name := by
  cases kind <;> rfl

namespace Value

/-- A value without parts. -/
def isScalar : Value → Bool
  | .list _ => false
  | .tuple _ => false
  | .object _ => false
  | .record _ _ => false
  | _ => true

mutual

/-- What a value becomes in a document, by what its place is declared to hold. -/
inductive Dumps : Declaration → Value → Value → Prop where
  | scalar {place : Declaration} {v : Value} : v.isScalar = true → Dumps place v v
  | list {place : Declaration} {items dumped : List Value} :
      DumpsItems place.item items dumped → Dumps place (.list items) (.list dumped)
  | tuple {place : Declaration} {items dumped : List Value} :
      DumpsItems .other items dumped → Dumps place (.tuple items) (.tuple dumped)
  | object {place : Declaration} {entries dumped : Document} :
      DumpsEntries entries dumped → Dumps place (.object entries) (.object dumped)
  | record {place : Declaration} {kind : Kind} {fields dumped : Document} :
      DumpsFields (place.kindOf kind) fields dumped →
      Dumps place (.record kind fields) (.object dumped)

/-- Items become items, one by one and null ones too. -/
inductive DumpsItems : Declaration → List Value → List Value → Prop where
  | nil {place : Declaration} : DumpsItems place [] []
  | cons {place : Declaration} {v d : Value} {rest dumped : List Value} :
      Dumps place v d → DumpsItems place rest dumped → DumpsItems place (v :: rest) (d :: dumped)

/-- Entries become entries under the same names, in the same order and null ones too. -/
inductive DumpsEntries : Document → Document → Prop where
  | nil : DumpsEntries [] []
  | cons {name : Text} {v d : Value} {rest dumped : Document} :
      Dumps .other v d → DumpsEntries rest dumped →
      DumpsEntries ((name, v) :: rest) ((name, d) :: dumped)

/-- Fields become entries under the same names, in the same order, but not the null ones
and not those that the kind does not declare. -/
inductive DumpsFields : Kind → Document → Document → Prop where
  | nil {kind : Kind} : DumpsFields kind [] []
  | null {kind : Kind} {name : Text} {rest dumped : Document} :
      DumpsFields kind rest dumped → DumpsFields kind ((name, .null) :: rest) dumped
  | undeclared {kind : Kind} {name : Text} {v : Value} {rest dumped : Document} :
      kind.declarations.get? name = none → DumpsFields kind rest dumped →
      DumpsFields kind ((name, v) :: rest) dumped
  | kept {kind : Kind} {name : Text} {place : Declaration} {v d : Value}
      {rest dumped : Document} :
      kind.declarations.get? name = some place → v ≠ .null → Dumps place v d →
      DumpsFields kind rest dumped → DumpsFields kind ((name, v) :: rest) ((name, d) :: dumped)

end

theorem isNull_iff {v : Value} : v.isNull = true ↔ v = .null := by
  cases v <;> simp [isNull]

/-- The fields that hold something keep their names when all of them are declared. -/
theorem DumpsFields.names {kind : Kind} {fields dumped : Document}
    (h : DumpsFields kind fields dumped)
    (hdeclared : fields.map Prod.fst ⊆ kind.declarations.map Prod.fst) :
    dumped.map Prod.fst = (setFields fields).map Prod.fst := by
  induction fields generalizing dumped with
  | nil =>
      cases h
      rfl
  | cons field rest ih =>
      obtain ⟨name, v⟩ := field
      obtain ⟨hname, hrest⟩ := List.cons_subset.mp hdeclared
      rw [setFields_cons]
      cases h with
      | null h => exact ih h hrest
      | undeclared hnone _ =>
          obtain ⟨place, hplace⟩ := Entries.exists_get?_of_mem hname
          cases hnone.symm.trans hplace
      | kept _ hset _ h =>
          rw [if_neg (mt isNull_iff.mp hset), List.map_cons, List.map_cons, ih h hrest]

/-! ## How deep a value goes -/

mutual

/-- How many levels a dump goes down in a value without a declaration that leads it. -/
def depth (place : Declaration) : Value → Nat
  | .list items =>
    match place with
    | .records kind => depthOfItems (.record kind) items
    | _ => depthOfItems .other items + 1
  | .tuple items => depthOfItems .other items + 1
  | .object entries => depthOfEntries entries + 1
  | .record kind fields =>
    match place with
    | .record declared => depthOfFields declared fields
    | _ => depthOfFields kind fields + 1
  | _ => 0

/-- The depth of the deepest item. -/
def depthOfItems (place : Declaration) : List Value → Nat
  | [] => 0
  | v :: rest => max (depth place v) (depthOfItems place rest)

/-- The depth of the deepest entry. -/
def depthOfEntries : List (Text × Value) → Nat
  | [] => 0
  | (_, v) :: rest => max (depth .other v) (depthOfEntries rest)

/-- The depth of the deepest field that the kind declares. -/
def depthOfFields (kind : Kind) : List (Text × Value) → Nat
  | [] => 0
  | (name, v) :: rest =>
    match kind.declarations.get? name with
    | some place => max (depth place v) (depthOfFields kind rest)
    | none => depthOfFields kind rest

end

theorem depthOfFields_append (kind : Kind) (fields more : Document) :
    depthOfFields kind (fields ++ more) =
      max (depthOfFields kind fields) (depthOfFields kind more) := by
  induction fields with
  | nil => exact (Nat.zero_max _).symm
  | cons field rest ih =>
      rw [List.cons_append, depthOfFields, depthOfFields]
      cases kind.declarations.get? field.1 with
      | none => exact ih
      | some place => rw [ih, Nat.max_assoc]

/-! ## Every value within the limit dumps to one value -/

mutual

/-- A value dumps to what is made of it when there is room for its depth. -/
theorem dumps_dump : ∀ (v : Value) {place : Declaration} {room : Nat}, depth place v ≤ room →
    Dumps place v (dump true place room v)
  | .null, _, _, _ => .scalar rfl
  | .bool _, _, _, _ => .scalar rfl
  | .int _, _, _, _ => .scalar rfl
  | .double _, _, _, _ => .scalar rfl
  | .text _, _, _, _ => .scalar rfl
  | .bytes _, _, _, _ => .scalar rfl
  | .list items, .records _, _, h => .list (dumps_dumpItems items h)
  | .list items, .other, _ + 1, h => .list (dumps_dumpItems items (Nat.le_of_succ_le_succ h))
  | .list items, .record _, _ + 1, h => .list (dumps_dumpItems items (Nat.le_of_succ_le_succ h))
  | .tuple items, _, _ + 1, h => .tuple (dumps_dumpItems items (Nat.le_of_succ_le_succ h))
  | .object entries, _, _ + 1, h =>
    .object (dumps_dumpEntries entries (Nat.le_of_succ_le_succ h))
  | .record _ fields, .record _, _, h => .record (dumps_dumpFields fields h)
  | .record _ fields, .other, _ + 1, h =>
    .record (dumps_dumpFields fields (Nat.le_of_succ_le_succ h))
  | .record _ fields, .records _, _ + 1, h =>
    .record (dumps_dumpFields fields (Nat.le_of_succ_le_succ h))

theorem dumps_dumpItems : ∀ (items : List Value) {place : Declaration} {room : Nat},
    depthOfItems place items ≤ room → DumpsItems place items (dumpItems true place room items)
  | [], _, _, _ => .nil
  | v :: rest, _, _, h =>
    have hparts := Nat.max_le.mp h
    .cons (dumps_dump v hparts.1) (dumps_dumpItems rest hparts.2)

theorem dumps_dumpEntries : ∀ (entries : Document) {room : Nat},
    depthOfEntries entries ≤ room → DumpsEntries entries (dumpEntries true room entries)
  | [], _, _ => .nil
  | (_, v) :: rest, _, h =>
    have hparts := Nat.max_le.mp h
    .cons (dumps_dump v hparts.1) (dumps_dumpEntries rest hparts.2)

/-- The fields of a record dump to those that hold something and are declared. -/
theorem dumps_dumpFields : ∀ (fields : Document) {kind : Kind} {room : Nat},
    depthOfFields kind fields ≤ room → DumpsFields kind fields (dumpFields true kind room fields)
  | [], _, _, _ => .nil
  | (name, v) :: rest, kind, room, h => by
    rw [depthOfFields] at h
    rw [dumpFields, Bool.true_and]
    cases hplace : kind.declarations.get? name with
    | none =>
        simp only [hplace] at h
        have hrest := dumps_dumpFields rest h
        split
        · exact .undeclared hplace hrest
        · exact .undeclared hplace hrest
    | some place =>
        simp only [hplace] at h
        obtain ⟨hv, hfields⟩ := Nat.max_le.mp h
        have hrest := dumps_dumpFields rest hfields
        split
        case isTrue hnull =>
          rw [isNull_iff] at hnull
          subst hnull
          exact .null hrest
        case isFalse hset => exact .kept hplace (mt isNull_iff.mpr hset) (dumps_dump v hv) hrest

end

mutual

/-- There is only one dump of a value. -/
theorem Dumps.unique : ∀ (v : Value) {place : Declaration} {d e : Value},
    Dumps place v d → Dumps place v e → d = e
  | .list items, _, _, _, .list hd, .list he => congrArg Value.list (DumpsItems.unique items hd he)
  | .tuple items, _, _, _, .tuple hd, .tuple he =>
    congrArg Value.tuple (DumpsItems.unique items hd he)
  | .object entries, _, _, _, .object hd, .object he =>
    congrArg Value.object (DumpsEntries.unique entries hd he)
  | .record _ fields, _, _, _, .record hd, .record he =>
    congrArg Value.object (DumpsFields.unique fields hd he)
  | _, _, _, _, .scalar _, .scalar _ => rfl

theorem DumpsItems.unique : ∀ (items : List Value) {place : Declaration} {ds es : List Value},
    DumpsItems place items ds → DumpsItems place items es → ds = es
  | [], _, _, _, .nil, .nil => rfl
  | v :: rest, _, _, _, .cons hd hds, .cons he hes =>
    congrArg₂ List.cons (Dumps.unique v hd he) (DumpsItems.unique rest hds hes)

theorem DumpsEntries.unique : ∀ (entries : Document) {ds es : Document},
    DumpsEntries entries ds → DumpsEntries entries es → ds = es
  | [], _, _, .nil, .nil => rfl
  | (name, v) :: rest, _, _, .cons hd hds, .cons he hes =>
    congrArg₂ (fun d ds => (name, d) :: ds) (Dumps.unique v hd he)
      (DumpsEntries.unique rest hds hes)

/-- A field that is null or not declared has no dump, so the fields after it decide. -/
theorem DumpsFields.unique : ∀ (fields : Document) {kind : Kind} {ds es : Document},
    DumpsFields kind fields ds → DumpsFields kind fields es → ds = es
  | [], _, _, _, .nil, .nil => rfl
  | (name, v) :: rest, kind, ds, es, hds, hes => by
    cases hds with
    | null hds =>
        cases hes with
        | null hes => exact DumpsFields.unique rest hds hes
        | undeclared _ hes => exact DumpsFields.unique rest hds hes
        | kept _ hset _ _ => exact absurd rfl hset
    | undeclared hnone hds =>
        cases hes with
        | null hes => exact DumpsFields.unique rest hds hes
        | undeclared _ hes => exact DumpsFields.unique rest hds hes
        | kept hsome _ _ _ => simp [hnone] at hsome
    | kept hsome hset hd hds =>
        cases hes with
        | null _ => exact absurd rfl hset
        | undeclared hnone _ => simp [hnone] at hsome
        | kept hsome' _ he hes =>
            cases Option.some.inj (hsome.symm.trans hsome')
            exact congrArg₂ (fun d ds => (name, d) :: ds) (Dumps.unique v hd he)
              (DumpsFields.unique rest hds hes)

end

/-- A value within the room dumps to what is made of it and to nothing else. -/
theorem dumps_iff {v d : Value} {place : Declaration} {room : Nat} (h : depth place v ≤ room) :
    Dumps place v d ↔ d = v.dump true place room := by
  constructor
  · exact fun hd => hd.unique v (dumps_dump v h)
  · intro hd
    rw [hd]
    exact dumps_dump v h

mutual

/-- No entity is left in what a value dumps to. -/
theorem Dumps.recordless : ∀ (v : Value) {place : Declaration} {d : Value}, Dumps place v d →
    d.recordless = true
  | .list items, _, _, .list h => DumpsItems.recordless items h
  | .tuple items, _, _, .tuple h => DumpsItems.recordless items h
  | .object entries, _, _, .object h => DumpsEntries.recordFree entries h
  | .record _ fields, _, _, .record h => DumpsFields.recordFree fields h
  | v, _, _, .scalar h => by
    cases v with
    | list _ | tuple _ | object _ | record _ _ => cases h
    | _ => rfl

theorem DumpsItems.recordless : ∀ (items : List Value) {place : Declaration} {ds : List Value},
    DumpsItems place items ds → everywhereInItems (fun v => !v.isRecord) ds = true
  | [], _, _, .nil => rfl
  | v :: rest, _, _, .cons hd hds => by
    rw [everywhereInItems, Bool.and_eq_true]
    exact ⟨Dumps.recordless v hd, DumpsItems.recordless rest hds⟩

theorem DumpsEntries.recordFree : ∀ (entries : Document) {ds : Document},
    DumpsEntries entries ds → Value.recordFree ds = true
  | [], _, .nil => rfl
  | (_, v) :: rest, _, .cons hd hds => by
    rw [Value.recordFree, everywhereInEntries, Bool.and_eq_true]
    exact ⟨Dumps.recordless v hd, DumpsEntries.recordFree rest hds⟩

theorem DumpsFields.recordFree : ∀ (fields : Document) {kind : Kind} {ds : Document},
    DumpsFields kind fields ds → Value.recordFree ds = true
  | [], _, _, .nil => rfl
  | (_, _) :: rest, _, _, .null hds => DumpsFields.recordFree rest hds
  | (_, _) :: rest, _, _, .undeclared _ hds => DumpsFields.recordFree rest hds
  | (_, v) :: rest, _, _, .kept _ _ hd hds => by
    rw [Value.recordFree, everywhereInEntries, Bool.and_eq_true]
    exact ⟨Dumps.recordless v hd, DumpsFields.recordFree rest hds⟩

end

/-! ## Changed entities keep their kind -/

theorem assign_record {kind : Kind} {fields : Document} {a : Assignment} {w : Value}
    (h : (Value.record kind fields).assign a = .ok w) : ∃ changed, w = .record kind changed := by
  unfold assign at h
  cases hway : a.way with
  | nil =>
      rw [hway] at h
      cases htarget : a.target with
      | field name =>
          rw [htarget] at h
          simp only [assignAlong, assignTo] at h
          split at h <;> cases h
          exact ⟨_, rfl⟩
      | _ =>
          rw [htarget] at h
          cases h
  | cons step way =>
      rw [hway] at h
      cases step with
      | field name =>
          simp only [assignAlong, changeAt] at h
          split at h
          · obtain ⟨new, -, rfl⟩ := exists_of_map_eq_ok h
            exact ⟨_, rfl⟩
          · cases h
      | item i => cases h

/-- Assignments leave an entity its kind. -/
theorem assignAll_record {kind : Kind} {assignments : List Assignment} {fields : Document}
    {w : Value} (h : (Value.record kind fields).assignAll assignments = .ok w) :
    ∃ changed, w = .record kind changed := by
  induction assignments generalizing fields with
  | nil =>
      cases h
      exact ⟨fields, rfl⟩
  | cons a rest ih =>
      cases hfirst : (Value.record kind fields).assign a with
      | error f =>
          rw [assignAll, hfirst] at h
          cases h
      | ok changed =>
          obtain ⟨new, rfl⟩ := assign_record hfirst
          rw [assignAll, hfirst] at h
          exact ih h

/-- An entity that was read and then changed has the fields of its kind, in order. -/
theorem exists_fields_of_changed {kind : Kind} {data : Document} {v w : Value}
    {assignments : List Assignment} (hread : kind.read data = .ok v)
    (hchanged : v.assignAll assignments = .ok w) :
    ∃ fields, w = .record kind fields ∧ fields.map Prod.fst = kind.rules.map FieldRule.name := by
  have hformed : w.Formed := (formed_of_read hread).assignAll hchanged
  obtain ⟨_, -, rfl⟩ := Kind.read_eq_ok hread
  obtain ⟨fields, rfl⟩ := assignAll_record hchanged
  exact ⟨fields, rfl, hformed⟩

end Value

/-! ## The rights of a document -/

namespace Entries

variable {α : Type} {name : Text} {front : Entries α}

theorem erase_append_of_not_mem (h : name ∉ front.map Prod.fst) (back : Entries α) :
    erase name (front ++ back) = front ++ erase name back := by
  induction front with
  | nil => rfl
  | cons entry rest ih =>
      rw [List.map_cons, List.mem_cons, not_or] at h
      rw [List.cons_append, erase, if_neg (Ne.symm h.1), ih h.2, List.cons_append]

end Entries

namespace Value

theorem dumpFields_append (kind : Kind) (room : Nat) (fields more : Document) :
    dumpFields true kind room (fields ++ more) =
      dumpFields true kind room fields ++ dumpFields true kind room more := by
  induction fields with
  | nil => rfl
  | cons field rest ih =>
      rw [List.cons_append, dumpFields, dumpFields, ih]
      split
      · rfl
      · split <;> rfl

/-- A document has no names that the fields do not have. -/
theorem not_mem_dumpFields {kind : Kind} {room : Nat} {name : Text} {fields : Document}
    (h : name ∉ fields.map Prod.fst) : name ∉ (dumpFields true kind room fields).map Prod.fst := by
  induction fields with
  | nil => exact h
  | cons field rest ih =>
      obtain ⟨hname, hrest⟩ := not_or.mp (mt List.mem_cons.mpr h)
      rw [dumpFields]
      split
      · exact ih hrest
      · split
        · exact mt List.mem_cons.mp (not_or.mpr ⟨hname, ih hrest⟩)
        · exact ih hrest

/-- The document of an app whose last field is its rights: none when they are null,
otherwise the dump of the fields, without rights when theirs is empty. -/
theorem toDocument_app {front : Document} (h : Text.ofString "rights" ∉ front.map Prod.fst)
    (rights : Value) :
    (Value.record .app (front ++ [(Text.ofString "rights", rights)])).toDocument =
      if rights.isNull then .error (Failure.of (.missingKey (.text "rights")))
      else .ok (dumpFields true .app dumpLimit (front ++
        if (rights.dump true (.records .right) dumpLimit).isEmpty then []
        else [(Text.ofString "rights", rights)])) := by
  have hfront : Text.ofString "rights" ∉ (dumpFields true .app dumpLimit front).map Prod.fst :=
    not_mem_dumpFields h
  have hplace : Kind.app.declarations.get? (Text.ofString "rights") = some (.records .right) := rfl
  show withoutEmptyRights (dumpFields true .app dumpLimit
    (front ++ [(Text.ofString "rights", rights)])) = _
  rw [dumpFields_append, dumpFields_append, withoutEmptyRights,
    Entries.get?_append_of_not_mem hfront, Entries.erase_append_of_not_mem hfront]
  cases hrights : rights.isNull with
  | true =>
      rw [isNull_iff.mp hrights]
      rfl
  | false =>
      have hlast : dumpFields true .app dumpLimit [(Text.ofString "rights", rights)] =
          [(Text.ofString "rights", rights.dump true (.records .right) dumpLimit)] := by
        simp [dumpFields, hrights, hplace]
      rw [hlast]
      cases hempty : (rights.dump true (.records .right) dumpLimit).isEmpty with
      | true => simp [Entries.get?, Entries.erase, hempty, dumpFields]
      | false => simp [Entries.get?, hempty, hlast]

end Value

open Value

/-- The four fields of an app. -/
def App.fieldsOf (id name stars rights : Value) : Document :=
  [("id", id), ("name", name), ("stars", stars), ("rights", rights)]

/-- What the document of an app with these values in its fields is. -/
structure App.Documented (id name stars rights : Value) (answer : Except Failure Document) :
    Prop where
  refused : answer = .error (Failure.of (.missingKey (.text "rights"))) ↔ rights = .null
  answered : rights ≠ .null → ∃ doc, answer = .ok doc
  document : rights ≠ .null →
    depthOfFields .app (App.fieldsOf id name stars rights) ≤ dumpLimit →
    ∃ dumped doc, Dumps (.records .right) rights dumped ∧ answer = .ok doc ∧
      DumpsFields .app (("id", id) :: ("name", name) :: ("stars", stars) ::
        if dumped.isEmpty then [] else [("rights", rights)]) doc ∧
      doc.map Prod.fst = (setFields (("id", id) :: ("name", name) :: ("stars", stars) ::
        if dumped.isEmpty then [] else [("rights", rights)])).map Prod.fst ∧
      recordFree doc = true

/-- What the document of a user with these fields is; there always is one. -/
structure User.Documented (kind : Kind) (fields : Document) (answer : Except Failure Document) :
    Prop where
  answered : ∃ doc, answer = .ok doc
  document : depthOfFields kind fields ≤ dumpLimit →
    ∃ doc, answer = .ok doc ∧ DumpsFields kind fields doc ∧
      doc.map Prod.fst = (setFields fields).map Prod.fst ∧ recordFree doc = true

theorem User.documented {kind : Kind} {fields : Document}
    (hdeclared : fields.map Prod.fst ⊆ kind.declarations.map Prod.fst) :
    User.Documented kind fields (.ok (dumpFields true kind dumpLimit fields)) where
  answered := ⟨_, rfl⟩
  document hdepth := by
    have hdumps := dumps_dumpFields fields hdepth
    exact ⟨_, rfl, hdumps, hdumps.names hdeclared, DumpsFields.recordFree fields hdumps⟩

theorem App.documented (id name stars rights : Value) :
    App.Documented id name stars rights
      (Value.record .app (App.fieldsOf id name stars rights)).toDocument := by
  let front : Document := [("id", id), ("name", name), ("stars", stars)]
  have hnames : Text.ofString "rights" ∉ front.map Prod.fst := by
    show Text.ofString "rights" ∉ [Text.ofString "id", Text.ofString "name", Text.ofString "stars"]
    decide
  have hanswer := toDocument_app hnames rights
  rw [show App.fieldsOf id name stars rights = front ++ [(Text.ofString "rights", rights)] from rfl,
    hanswer]
  by_cases hrights : rights = .null
  · subst hrights
    exact ⟨⟨fun _ => rfl, fun _ => rfl⟩, fun hset => absurd rfl hset, fun hset => absurd rfl hset⟩
  · rw [if_neg (mt isNull_iff.mp hrights)]
    refine ⟨⟨nofun, fun h => absurd h hrights⟩, fun _ => ⟨_, rfl⟩, fun _ hdepth => ?_⟩
    let last : Document := if (rights.dump true (.records .right) dumpLimit).isEmpty then []
      else [("rights", rights)]
    have hparts : max (depthOfFields .app front) (depth (.records .right) rights) ≤ dumpLimit := by
      have hsplit := depthOfFields_append .app front [("rights", rights)]
      have hsingle : depthOfFields .app [("rights", rights)] =
          max (depth (.records .right) rights) 0 := rfl
      rw [hsingle, Nat.max_zero] at hsplit
      exact hsplit ▸ hdepth
    obtain ⟨hfront, hlast⟩ := Nat.max_le.mp hparts
    have hends : last = [] ∨ last = [(Text.ofString "rights", rights)] := ite_eq_or_eq _ _ _
    have hfields : depthOfFields .app (front ++ last) ≤ dumpLimit := by
      rw [depthOfFields_append]
      refine Nat.max_le.mpr ⟨hfront, ?_⟩
      obtain hempty | hkept := hends
      · rw [hempty]
        exact Nat.zero_le _
      · rw [hkept]
        exact Nat.max_le.mpr ⟨hlast, Nat.zero_le _⟩
    have hdumps := dumps_dumpFields (front ++ last) hfields
    have hdeclared : (front ++ last).map Prod.fst ⊆ Kind.app.declarations.map Prod.fst := by
      rw [List.map_append]
      refine List.append_subset.mpr ⟨List.subset_append_left _ [Text.ofString "rights"], ?_⟩
      obtain hempty | hkept := hends
      · rw [hempty]
        exact List.nil_subset _
      · rw [hkept]
        exact List.subset_append_right (front.map Prod.fst) _
    exact ⟨_, _, dumps_dump rights hlast, rfl, hdumps, hdumps.names hdeclared,
      DumpsFields.recordFree _ hdumps⟩

/-- **The documents of changed entities.**  An app that was read from data, and then changed
by assignments at any depth, has no document when its rights are null, and one otherwise.
When none of its values is deeper than a dump goes, the document has, in the order of the
fields, what each of them that is not null dumps to, but for rights that dump to something
empty.  The document of a user that was changed in any way has what each of its fields that
is not null dumps to.  No entity is left in such a document at any depth, and there is no
other way to fail.  A document is made without a change to the entity. -/
theorem documents_of_changed_entities :
    (∀ (assignments : List Assignment) {data : Document} {v w : Value},
      Kind.read .app data = .ok v → v.assignAll assignments = .ok w →
      ∃ id name stars rights, w = .record .app (App.fieldsOf id name stars rights) ∧
        App.Documented id name stars rights w.toDocument) ∧
    ∀ (assignments : List Assignment) {kind : Kind} {data : Document} {v w : Value},
      kind = .user ∨ kind = .userSnapshot →
      kind.read data = .ok v → v.assignAll assignments = .ok w →
      ∃ id name age friend, w = .record kind [("id", id), ("name", name), ("age", age),
        ("friend", friend)] ∧
        User.Documented kind [("id", id), ("name", name), ("age", age), ("friend", friend)]
          w.toDocument := by
  have hfour : ∀ {fields : Document} {a b c d : Text}, fields.map Prod.fst = [a, b, c, d] →
      ∃ v w x y, fields = [(a, v), (b, w), (c, x), (d, y)] := by
    intro fields a b c d h
    match fields, h with
    | [(_, v), (_, w), (_, x), (_, y)], rfl => exact ⟨v, w, x, y, rfl⟩
  constructor
  · intro assignments data v w hread hchanged
    obtain ⟨fields, rfl, hnames⟩ := exists_fields_of_changed hread hchanged
    obtain ⟨id, name, stars, rights, rfl⟩ := hfour hnames
    exact ⟨id, name, stars, rights, rfl, App.documented id name stars rights⟩
  · intro assignments kind data v w hkind hread hchanged
    obtain ⟨fields, rfl, hnames⟩ := exists_fields_of_changed hread hchanged
    rw [← kind.declarations_names] at hnames
    have hdeclared : fields.map Prod.fst ⊆ kind.declarations.map Prod.fst := by
      rw [hnames]
      exact List.Subset.refl _
    obtain rfl | rfl := hkind
    all_goals
      obtain ⟨id, name, age, friend, rfl⟩ := hfour hnames
      exact ⟨id, name, age, friend, rfl, User.documented hdeclared⟩

/-- An app whose right loses the name of its user, whose rights get a null and whose own
name becomes a grant inside a tuple, and a user whose age becomes an object. -/
theorem documents_of_changed_entities_nested :
    let user : Value := .object [("id", .int 7), ("name", .text "Ada"), ("friend", .text "Bob")]
    let app : Document := [("id", .int 2), ("name", .text "Files"), ("stars", .int 4),
      ("rights", .list [.object [("right", .text "OWNER"), ("user", user)]])]
    let changes : List Assignment :=
      [⟨[.field "rights", .item 0, .field "user"], .field "name", .null⟩,
       ⟨[.field "rights"], .append, .null⟩,
       ⟨[], .field "name", .tuple [.null, .record .roleGrant [("role", .null), ("db", .text "d")]]⟩]
    let data : Document := [("id", .int 7), ("name", .text "Ada"), ("friend", .text "Bob")]
    let aging : List Assignment := [⟨[], .field "age", .object [("years", .null)]⟩]
    ∃ v w u x, Kind.read .app app = .ok v ∧ v.assignAll changes = .ok w ∧
      Kind.read .user data = .ok u ∧ u.assignAll aging = .ok x ∧
      (∃ id name stars rights, w = .record .app (App.fieldsOf id name stars rights) ∧
        App.Documented id name stars rights w.toDocument) ∧
      ∃ id name age friend, x = .record .user [("id", id), ("name", name), ("age", age),
        ("friend", friend)] ∧
        User.Documented .user [("id", id), ("name", name), ("age", age), ("friend", friend)]
          x.toDocument := by
  intro user app changes data aging
  have happ : Kind.read .app app = .ok _ := rfl
  have huser : Kind.read .user data = .ok _ := rfl
  exact ⟨_, _, _, _, happ, rfl, huser, rfl, documents_of_changed_entities.1 changes happ rfl,
    documents_of_changed_entities.2 aging (Or.inl rfl) huser rfl⟩

/-- An app that is put in the place of the user of a right loses the fields that the copy of
a user does not have, though they hold something; and a grant inside as many lists as a dump
goes down stays a grant. -/
theorem misplaced_app_loses_fields :
    let user : Value := .object [("id", .int 7), ("name", .text "Ada"), ("friend", .text "Bob")]
    let data : Document := [("id", .int 2), ("name", .text "Files"), ("stars", .int 4),
      ("rights", .list [.object [("right", .text "OWNER"), ("user", user)]])]
    let other : Value := .record .app
      (App.fieldsOf (.int 9) (.text "x") (.int 4) (.list []))
    let buried : Value := (List.range dumpLimit).foldl (fun v _ => .list [v])
      (.record .roleGrant [("role", .text "read"), ("db", .text "d")])
    let document (user : Document) : Document :=
      [("id", .int 2), ("name", .text "Files"), ("stars", .int 4),
        ("rights", .list [.object [("right", .text "OWNER"), ("user", .object user)]])]
    (∃ v w, Kind.read .app data = .ok v ∧
      v.assignAll [⟨[.field "rights", .item 0], .field "user", other⟩] = .ok w ∧
      w.toDocument = .ok (document [("id", .int 9), ("name", .text "x")]) ∧
      w.toDocument ≠ .ok (document [("id", .int 9), ("name", .text "x"), ("stars", .int 4),
        ("rights", .list [])])) ∧
    ∃ v w doc, Kind.read .app data = .ok v ∧
      v.assignAll [⟨[], .field "name", buried⟩] = .ok w ∧ w.toDocument = .ok doc ∧
      recordFree doc = false := by
  intro user data other buried document
  refine ⟨⟨_, _, rfl, rfl, rfl, ?_⟩, _, _, _, rfl, rfl, rfl, ?_⟩
  · show Except.ok (document [(Text.ofString "id", .int 9), (Text.ofString "name", .text "x")]) ≠ _
    simp [document]
  · decide +kernel

/-- A right without anything in it dumps to an object without entries, which keeps its
place in a list, but not as the rights of an app. -/
example :
    let right : Value := .record .right [("right", .null), ("user", .null)]
    (Value.record .app (App.fieldsOf .null (.list [right, .null]) (.int 3) right)).toDocument =
        .ok [("name", .list [.object [], .null]), ("stars", .int 3)] := rfl

end InitialLoad
