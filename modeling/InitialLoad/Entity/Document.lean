import InitialLoad.Failure

/-!
# Documents and commands

`Value.dump` replaces the records inside a value by objects of their fields.  A
document leaves out the fields of records that are null, at every depth, but
not the null items of lists nor the null entries of plain objects, which are
data.  The document of an app has no `rights` when there are none.

What a place is declared to hold decides how a record there is dumped: where a
record of some kind is declared, any record is dumped by the fields of that
kind, and what else it holds is left out.  Everywhere else a record is dumped by
its own fields.  A dump that is not led by a declaration goes down a limited
number of levels, and leaves what is deeper as it is.

A database user has a command instead of a document: its password and the
objects of its grants, with their null fields.
-/

namespace InitialLoad

/-- What a place is declared to hold: a record of a kind, a list of such
records, or something else. -/
inductive Declaration where
  | other
  | record (kind : Kind)
  | records (kind : Kind)
deriving DecidableEq, Repr

/-- The fields that a kind declares. -/
def Kind.declarations : Kind → Entries Declaration
  | .app => [("id", .other), ("name", .other), ("stars", .other), ("rights", .records .right)]
  | .right => [("right", .other), ("user", .record .userSnapshot)]
  | .user => [("id", .other), ("name", .other), ("age", .other), ("friend", .other)]
  | .userSnapshot => [("id", .other), ("name", .other), ("age", .other), ("friend", .other)]
  | .roleGrant => [("role", .other), ("db", .other)]
  | .databaseUser => [("user", .other), ("pwd", .other), ("roles", .records .roleGrant)]

namespace Value

/-- How many levels a dump goes down without a declaration that leads it. -/
def dumpLimit : Nat := 255

mutual

/-- The value with objects in place of records, as far as `room` levels without
a declaration; `dropNull` leaves the null fields of records out. -/
def dump (dropNull : Bool) (place : Declaration) (room : Nat) : Value → Value
  | .list items =>
    match place, room with
    | .records kind, room => .list (dumpItems dropNull (.record kind) room items)
    | _, 0 => .list items
    | _, room + 1 => .list (dumpItems dropNull .other room items)
  | .tuple items =>
    match room with
    | 0 => .tuple items
    | room + 1 => .tuple (dumpItems dropNull .other room items)
  | .object entries =>
    match room with
    | 0 => .object entries
    | room + 1 => .object (dumpEntries dropNull room entries)
  | .record kind fields =>
    match place, room with
    | .record declared, room => .object (dumpFields dropNull declared room fields)
    | _, 0 => .record kind fields
    | _, room + 1 => .object (dumpFields dropNull kind room fields)
  | v => v

/-- The items of a list, null ones too. -/
def dumpItems (dropNull : Bool) (place : Declaration) (room : Nat) : List Value → List Value
  | [] => []
  | v :: rest => dump dropNull place room v :: dumpItems dropNull place room rest

/-- The entries of an object, null ones too. -/
def dumpEntries (dropNull : Bool) (room : Nat) : List (Text × Value) → List (Text × Value)
  | [] => []
  | (name, v) :: rest => (name, dump dropNull .other room v) :: dumpEntries dropNull room rest

/-- The fields of a record that the kind declares. -/
def dumpFields (dropNull : Bool) (kind : Kind) (room : Nat) :
    List (Text × Value) → List (Text × Value)
  | [] => []
  | (name, v) :: rest =>
    if dropNull && v.isNull then dumpFields dropNull kind room rest
    else match kind.declarations.get? name with
      | some place =>
        (name, dump dropNull place room v) :: dumpFields dropNull kind room rest
      | none => dumpFields dropNull kind room rest

end

/-- Without the entry for rights when it is empty; there must be one. -/
def withoutEmptyRights (doc : Document) : Except Failure Document :=
  match doc.get? "rights" with
  | none => .error (Failure.of (.missingKey (.text "rights")))
  | some rights => .ok (if rights.isEmpty then doc.erase "rights" else doc)

/-- The document under which an app or a user is stored; nothing else has one. -/
def toDocument : Value → Except Failure Document
  | .record .app fields => withoutEmptyRights (dumpFields true .app dumpLimit fields)
  | .record .user fields => .ok (dumpFields true .user dumpLimit fields)
  | .record .userSnapshot fields => .ok (dumpFields true .userSnapshot dumpLimit fields)
  | v => .error (Failure.of (.missingAttribute v.typeName "to_document"))

/-- A field of a record. -/
def member (name : Text) : Value → Except Failure Value
  | .record kind fields =>
    match Entries.get? name fields with
    | some v => .ok v
    | none => .error (Failure.of (.missingAttribute kind.name name))
  | v => .error (Failure.of (.missingAttribute v.typeName name))

/-- The items that a value holds, one after the other. -/
def items : Value → Except Failure (List Value)
  | .list vs => .ok vs
  | .tuple vs => .ok vs
  | .text t => .ok (t.map fun c => .text [c])
  | .bytes b => .ok (b.map fun byte => .int byte.toNat)
  | .object entries => .ok (entries.map fun entry => .text entry.1)
  | .record _ fields => .ok (pairs fields)
  | v => .error (Failure.of (.unsupported
      (Text.join ["'", v.typeName, "' object is not iterable"])))

/-- The object of a record, null fields included. -/
def toObject : Value → Except Failure Value
  | .record kind fields => .ok (.object (dumpFields false kind dumpLimit fields))
  | v => .error (Failure.of (.missingAttribute v.typeName "model_dump"))

/-- The objects of a sequence of records. -/
def toObjects : List Value → Except Failure (List Value)
  | [] => .ok []
  | v :: rest => do
    let first ← v.toObject
    let more ← toObjects rest
    return first :: more

/-- What the command that creates a database user needs besides the name. -/
structure Credentials where
  pwd : Value
  roles : List Value

/-- The command of a database user. -/
def toCommand : Value → Except Failure Credentials
  | .record .databaseUser fields => do
    let pwd ← member "pwd" (.record .databaseUser fields)
    let roles ← member "roles" (.record .databaseUser fields)
    let grants ← roles.items
    return ⟨pwd, ← toObjects grants⟩
  | v => .error (Failure.of (.missingAttribute v.typeName "to_command"))

end Value

end InitialLoad
