import InitialLoad.Proofs.EntityReading
import InitialLoad.Proofs.SeedCourse

/-!
# The documents of entities, there and back

A document leaves out what is not set: the age of a user, on its own or in a right,
and the rights of an app that has none.  Reading fills in what was left out, and
passes over keys that are no fields.  `Kind.declared` is what data hold under the
fields of a kind, so two documents with the same declared part differ in such keys
only, and data whose declared part is the document of an entity are read as it.

A database user is read from its name and its command in the same way, and no document
of an entity holds a null.
-/

namespace InitialLoad

/-! ## The declared part of data -/

/-- The kind has a field of this name. -/
def Kind.hasField (kind : Kind) (name : Text) : Bool := kind.rules.any fun rule => rule.name = name

/-- The entries of data that are fields of the kind, with what `inner` makes of the
value of a field. -/
def Kind.declared (kind : Kind) (inner : Text → Value → Value) (data : Document) : Document :=
  (data.filter fun entry => kind.hasField entry.1).map fun entry => (entry.1, inner entry.1 entry.2)

theorem Kind.get?_declared {kind : Kind} {name : Text} (hname : kind.hasField name = true)
    (inner : Text → Value → Value) (data : Document) :
    Entries.get? name (kind.declared inner data) = (Entries.get? name data).map (inner name) :=
  Entries.get?_filter_map hname inner data

/-- The declared part of the data of a user. -/
def User.declared (data : Document) : Document := Kind.declared .user (fun _ v => v) data

/-- The declared part of the copy of a user, as a value. -/
def User.declaredObject : Value → Value
  | .object data => .object (User.declared data)
  | v => v

/-- The declared part of a right, that of its user included. -/
def Right.declared : Value → Value
  | .object data => .object (Kind.declared .right
      (fun name v => if name = "user" then User.declaredObject v else v) data)
  | v => v

/-- The declared parts of the items of a list of rights. -/
def Right.declaredItems : Value → Value
  | .list items => .list (items.map Right.declared)
  | v => v

/-- The declared part of the data of an app, that of its rights included. -/
def App.declared (data : Document) : Document :=
  Kind.declared .app (fun name v => if name = "rights" then Right.declaredItems v else v) data

/-! ## Documents are their own declared part -/

theorem User.declared_document (u : User) : User.declared u.document = u.document := by
  rcases u with ⟨id, name, age, friend⟩
  cases age <;> rfl

theorem Right.declared_document (r : Right) : Right.declared r.document = r.document := by
  have huser := r.user.declared_document
  show Value.object [("right", .text r.right), ("user", .object (User.declared r.user.document))] =
    r.document
  rw [huser]
  rfl

theorem App.declared_document (a : App) : App.declared a.document = a.document := by
  have hrights : (a.rights.map Right.document).map Right.declared =
      a.rights.map Right.document := by
    rw [List.map_map]
    exact List.map_congr_left fun r _ => r.declared_document
  unfold App.document
  split
  · rfl
  · show @Eq Document [("id", .int a.id), ("name", .text a.name), ("stars", .int a.stars),
      ("rights", .list ((a.rights.map Right.document).map Right.declared))] _
    rw [hrights]

/-! ## Data with the declared part of a document -/

/-- Data with the declared part of a user's document describe the user. -/
theorem User.DescribedBy.of_declared {u : User} {data : Document}
    (h : User.declared data = u.document) : u.DescribedBy data := by
  have hdescribed := u.describedBy_document
  rw [← h] at hdescribed
  have hfield : ∀ name, Kind.hasField .user name = true →
      Entries.get? name data = Entries.get? name (User.declared data) := by
    intro name hname
    rw [User.declared, Kind.get?_declared hname, Option.map_id']
  exact ⟨(hfield _ (by decide)).trans hdescribed.id, (hfield _ (by decide)).trans hdescribed.name,
    (hfield _ (by decide)).trans hdescribed.age, (hfield _ (by decide)).trans hdescribed.friend⟩

theorem User.declaredObject_eq {v : Value} {u : User}
    (h : User.declaredObject v = .object u.document) :
    ∃ data, v = .object data ∧ u.DescribedBy data := by
  cases v with
  | object data => exact ⟨data, rfl, .of_declared (Value.object.inj h)⟩
  | _ => cases h

theorem Right.DescribedBy.of_declared {r : Right} {v : Value} (h : Right.declared v = r.document) :
    r.DescribedBy v := by
  cases v with
  | object data =>
      have hfields := Value.object.inj h
      have hright := congrArg (Entries.get? "right") hfields
      have huser := congrArg (Entries.get? "user") hfields
      rw [Kind.get?_declared (by decide)] at hright huser
      obtain ⟨w, hw, hvalue⟩ := Option.map_eq_some_iff.mp huser
      obtain ⟨user, rfl, hdescribed⟩ := User.declaredObject_eq hvalue
      refine ⟨data, user, rfl, ?_, hw, hdescribed⟩
      obtain ⟨t, ht, rfl⟩ := Option.map_eq_some_iff.mp hright
      exact ht
  | _ => cases h

theorem Right.describedBy_of_declaredItems {rights : List Right} {items : List Value}
    (h : items.map Right.declared = rights.map Right.document) :
    List.Forall₂ Right.DescribedBy rights items := by
  induction rights generalizing items with
  | nil =>
      rw [List.map_eq_nil_iff.mp h]
      exact .nil
  | cons r rest ih =>
      obtain ⟨v, more, rfl, hv, hmore⟩ := List.map_eq_cons_iff.mp h
      exact .cons (.of_declared hv) (ih hmore)

/-- Data with the declared part of an app's document describe the app. -/
theorem App.DescribedBy.of_declared {a : App} {data : Document}
    (h : App.declared data = a.document) : a.DescribedBy data := by
  have hplain : ∀ name, Kind.hasField .app name = true → name ≠ "rights" →
      Entries.get? name data = Entries.get? name a.document := by
    intro name hname hne
    rw [← h, App.declared, Kind.get?_declared hname]
    simp [hne]
  -- The declared part of the rights is a list only where the rights are one, so the items
  -- have to be compared one by one.
  have hrights := congrArg (Entries.get? "rights") h
  rw [App.declared, Kind.get?_declared (by decide)] at hrights
  refine ⟨hplain _ (by decide) (by decide), hplain _ (by decide) (by decide),
    hplain _ (by decide) (by decide), ?_⟩
  by_cases hnone : a.rights = []
  · refine Or.inl ⟨hnone, Option.map_eq_none_iff.mp (hrights.trans ?_)⟩
    rw [App.document, if_pos hnone]
    rfl
  · have hdocument : Entries.get? "rights" a.document =
        some (.list (a.rights.map Right.document)) := by
      rw [App.document, if_neg hnone]
      rfl
    obtain ⟨v, hv, hvalue⟩ := Option.map_eq_some_iff.mp (hrights.trans hdocument)
    cases v with
    | list items =>
        exact Or.inr ⟨items, hv, Right.describedBy_of_declaredItems (Value.list.inj hvalue)⟩
    | _ => cases hvalue

/-! ## No null -/

/-- No null at any depth. -/
def Value.nullFree (data : Document) : Bool := everywhereInEntries (fun v => !v.isNull) data

theorem User.nullFree_document (u : User) : Value.nullFree u.document = true := by
  rcases u with ⟨id, name, age, friend⟩
  cases age <;> rfl

theorem Right.nullFree_document (r : Right) :
    r.document.everywhere (fun v => !v.isNull) = true := by
  show (Value.nullFree r.user.document && true) = true
  rw [r.user.nullFree_document]
  rfl

theorem Right.nullFree_documents (rights : List Right) :
    Value.everywhereInItems (fun v => !v.isNull) (rights.map Right.document) = true := by
  induction rights with
  | nil => rfl
  | cons r rest ih =>
      rw [List.map_cons, Value.everywhereInItems, r.nullFree_document, ih]
      rfl

theorem App.nullFree_document (a : App) : Value.nullFree a.document = true := by
  have hrights := Right.nullFree_documents a.rights
  unfold App.document
  split
  · rfl
  · show (Value.everywhereInItems _ (a.rights.map Right.document) && true) = true
    rw [hrights]
    rfl

theorem App.rights_document (a : App) :
    (Entries.get? "rights" a.document).isSome = true ↔ a.rights ≠ [] := by
  unfold App.document
  split
  case isTrue hnone =>
    exact ⟨fun h => absurd (show false = true from h) nofun, fun h => absurd hnone h⟩
  case isFalse hsome => exact ⟨fun _ => hsome, fun _ => rfl⟩

/-! ## The command of a database user -/

/-- The object of a grant inside the command of its database user. -/
def RoleGrant.document (g : RoleGrant) : Value :=
  .object [("role", .text g.role), ("db", .text g.db)]

/-- The arguments under which a database user was created make the database user. -/
theorem DatabaseUser.read_command (p : DatabaseUser) :
    Kind.read .databaseUser
      [("user", .text p.user), ("pwd", .text p.pwd), ("roles", .list p.grants)] =
        .ok p.toValue := by
  have hgrant : ∀ (g : RoleGrant) (v : Value), v = g.document →
      entityField .roleGrant roleGrantRules v = .ok g.toValue := by
    rintro g _ rfl
    rfl
  have hgrants : List.Forall₂ (fun g v => v = RoleGrant.document g) p.roles p.grants := by
    rw [DatabaseUser.grants, List.forall₂_map_right_iff]
    exact List.forall₂_same.mpr fun g _ => rfl
  have hread := Value.readItems_of_forall₂ hgrant hgrants 0
  have hroles : FieldRule.apply
      [("user", .text p.user), ("pwd", .text p.pwd), ("roles", .list p.grants)]
      ⟨"roles", Value.listField (entityField .roleGrant roleGrantRules), some (.list [])⟩ =
        .ok ("roles", .list (p.roles.map RoleGrant.toValue)) := by
    refine FieldRule.apply_present rfl ?_
    show (Reading.gather (Value.readItems _ 0 p.grants)).map Value.list = _
    rw [hread, Reading.gather_ok]
    rfl
  simp only [Kind.read, Kind.rules, readFields, databaseUserRules, List.map_cons, List.map_nil,
    hroles]
  rfl

/-! ## There and back -/

/-- The entity is read again from its document and from all data that hold the document
under their fields, and encoded again it is the same document, which holds no null. -/
structure Kind.RoundTrip (kind : Kind) (declared : Document → Document) (entity : Value)
    (doc : Document) : Prop where
  encode : entity.toDocument = .ok doc
  declared_self : declared doc = doc
  decode : ∀ data, declared data = doc → kind.read data = .ok entity
  again : ∀ data, declared data = doc → kind.read data >>= Value.toDocument = .ok doc
  nullFree : Value.nullFree doc = true

/-- **Nothing is lost between an entity and its document.**  An app, and a user, is read
field for field from its document, whatever keys that are no fields are added to the
document, to its rights and to their users; encoded again it is the document.  The
document holds no null at any depth.  It has the fields of the entity with their values,
the rights in their order, and each age exactly when it is set; and it has rights exactly
when the app has some.  A database user is read from its name and its command. -/
theorem entities_round_trip :
    (∀ a : App, Kind.RoundTrip .app App.declared a.toValue a.document ∧
      a.DescribedBy a.document ∧
      ((Entries.get? "rights" a.document).isSome = true ↔ a.rights ≠ [])) ∧
    (∀ u : User, Kind.RoundTrip .user User.declared u.toValue u.document ∧
      u.DescribedBy u.document) ∧
    ∀ p : DatabaseUser, ∃ user command, p.toValue.member "user" = .ok user ∧
      p.toValue.toCommand = .ok command ∧
      Kind.read .databaseUser
        [("user", user), ("pwd", command.pwd), ("roles", .list command.roles)] = .ok p.toValue := by
  refine ⟨?_, ?_, ?_⟩
  · intro a
    have hread : ∀ data, App.declared data = a.document → Kind.read .app data = .ok a.toValue :=
      fun data hdata => (App.DescribedBy.of_declared hdata).read
    refine ⟨⟨a.toDocument_toValue, a.declared_document, hread, ?_, a.nullFree_document⟩,
      a.describedBy_document, a.rights_document⟩
    intro data hdata
    rw [hread data hdata]
    exact a.toDocument_toValue
  · intro u
    have hread : ∀ data, User.declared data = u.document → Kind.read .user data = .ok u.toValue :=
      fun data hdata => (User.DescribedBy.of_declared hdata).read
    refine ⟨⟨u.toDocument_toValue, u.declared_document, hread, ?_, u.nullFree_document⟩,
      u.describedBy_document⟩
    intro data hdata
    rw [hread data hdata]
    exact u.toDocument_toValue
  · exact fun p => ⟨_, _, p.member_user, p.toCommand_toValue, p.read_command⟩

/-- An app with a right on it, from a document with a key of the server's own in every
object; the one inside the right is the name of a field of users. -/
theorem entities_round_trip_foreign_keys :
    let a : App := ⟨2, "Files", 4, [⟨"OWNER", ⟨7, "Ada", none, "Bob"⟩⟩]⟩
    let data : Document := [("_id", .null), ("id", .int 2), ("name", .text "Files"),
      ("stars", .int 4), ("rights", .list [.object [("right", .text "OWNER"),
        ("name", .int 0), ("user", .object [("id", .int 7), ("name", .text "Ada"),
          ("friend", .text "Bob"), ("rights", .list [.null])])]])]
    App.declared data = a.document ∧ Kind.read .app data = .ok a.toValue := by
  intro a data
  have hdeclared : App.declared data = a.document := rfl
  exact ⟨hdeclared, (entities_round_trip.1 a).1.decode data hdeclared⟩

end InitialLoad
