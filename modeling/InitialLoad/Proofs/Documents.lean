import InitialLoad.Entity.Basic
import InitialLoad.Entity.Document
import InitialLoad.Server.Storing

/-!
# The documents of validated entities

The document of a validated entity in closed form: an age only when one is set,
rights only when there are any, everything else in the order of the fields.
Such a document is stored as it is, for it holds no tuple.  It can be stored
when its integers fit into eight bytes and its texts hold no lone surrogate,
which is what `Encodable` says of an entity.
-/

namespace InitialLoad

/-! ## Closed forms -/

namespace User

/-- The document of a user. -/
def document (u : User) : Document :=
  match u.age with
  | none => [("id", .int u.id), ("name", .text u.name), ("friend", .text u.friend)]
  | some n =>
    [("id", .int u.id), ("name", .text u.name), ("age", .int n), ("friend", .text u.friend)]

/-- The fields of a user need no room: none of them goes down. -/
theorem dumpFields_fields (u : User) {kind : Kind} (hkind : kind = .user ∨ kind = .userSnapshot)
    (room : Nat) : Value.dumpFields true kind room u.fields = u.document := by
  rcases u with ⟨id, name, age, friend⟩
  obtain rfl | rfl := hkind
  all_goals cases age <;> rfl

theorem toDocument_toValue (u : User) : u.toValue.toDocument = .ok u.document :=
  congrArg Except.ok (u.dumpFields_fields (Or.inl rfl) _)

theorem toDocument_toSnapshot (u : User) : u.toSnapshot.toDocument = .ok u.document :=
  congrArg Except.ok (u.dumpFields_fields (Or.inr rfl) _)

theorem get?_id_document (u : User) : Entries.get? "id" u.document = some (.int u.id) := by
  rcases u with ⟨id, name, age, friend⟩
  cases age <;> rfl

end User

/-- The object of a right inside the document of its app. -/
def Right.document (r : Right) : Value :=
  .object [("right", .text r.right), ("user", .object r.user.document)]

theorem Right.dump_toValue (r : Right) (room : Nat) :
    r.toValue.dump true (.record .right) room = r.document := by
  have huser := r.user.dumpFields_fields (Or.inr rfl) room
  show Value.object [("right", .text r.right),
    ("user", .object (Value.dumpFields true .userSnapshot room r.user.fields))] = r.document
  rw [huser]
  rfl

theorem Right.dumpItems_toValue (rights : List Right) (room : Nat) :
    Value.dumpItems true (.record .right) room (rights.map Right.toValue) =
      rights.map Right.document := by
  induction rights with
  | nil => rfl
  | cons r rest ih => simp [Value.dumpItems, r.dump_toValue, ih]

namespace App

/-- The document of an app. -/
def document (a : App) : Document :=
  ("id", .int a.id) :: ("name", .text a.name) :: ("stars", .int a.stars) ::
    (if a.rights = [] then [] else [("rights", .list (a.rights.map Right.document))])

theorem toDocument_toValue (a : App) : a.toValue.toDocument = .ok a.document := by
  have hrights := Right.dumpItems_toValue a.rights Value.dumpLimit
  show Value.withoutEmptyRights [("id", .int a.id), ("name", .text a.name),
    ("stars", .int a.stars),
    ("rights", .list (Value.dumpItems true (.record .right) Value.dumpLimit
      (a.rights.map Right.toValue)))] = .ok a.document
  rw [hrights]
  unfold document
  cases a.rights with
  | nil => rfl
  | cons r rest => rfl

theorem get?_id_document (a : App) : Entries.get? "id" a.document = some (.int a.id) := rfl

end App

/-! ## Storing -/

theorem User.storedEntries_document (u : User) : Value.storedEntries u.document = u.document := by
  rcases u with ⟨id, name, age, friend⟩
  cases age <;> rfl

theorem Right.stored_document (r : Right) : r.document.stored = r.document := by
  have huser := r.user.storedEntries_document
  simp [document, Value.stored, Value.storedEntries, huser]

theorem Right.storedItems_documents (rights : List Right) :
    Value.storedItems (rights.map Right.document) = rights.map Right.document := by
  induction rights with
  | nil => rfl
  | cons r rest ih => simp [Value.storedItems, r.stored_document, ih]

theorem App.storedEntries_document (a : App) : Value.storedEntries a.document = a.document := by
  have hrights := Right.storedItems_documents a.rights
  unfold document
  split
  · rfl
  · simp [Value.storedEntries, Value.stored, hrights]

end InitialLoad
