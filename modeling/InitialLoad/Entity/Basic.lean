import InitialLoad.Value.Basic

/-!
# Entities

The entities of the app store as they are once their data have been accepted:
apps with the rights held on them, users, and the database user that the
application signs in with.  A right holds a copy of its user, which is not kept
in step with the users themselves.

Each entity has a record, which is how it travels: `App.toValue` and its like
put the fields in their fixed order.
-/

namespace InitialLoad

/-- A user of the app store. -/
structure User where
  id : Int
  name : Text
  age : Option Int := none
  friend : Text
deriving DecidableEq, Repr

/-- A role that a user holds on an app, with a copy of the user. -/
structure Right where
  right : Text
  user : User
deriving DecidableEq, Repr

/-- An app in the store. -/
structure App where
  id : Int
  name : Text
  stars : Int
  rights : List Right := []
deriving DecidableEq, Repr

/-- A built-in role, granted on one database. -/
structure RoleGrant where
  role : Text
  db : Text
deriving DecidableEq, Repr

/-- A database user with its password and its grants. -/
structure DatabaseUser where
  user : Text
  pwd : Text
  roles : List RoleGrant := []
deriving DecidableEq, Repr

/-- An integer that may be absent. -/
def Value.ofOptionalInt : Option Int → Value
  | none => .null
  | some n => .int n

namespace User

/-- The fields of a user, in order. -/
def fields (u : User) : Document :=
  [("id", .int u.id), ("name", .text u.name), ("age", .ofOptionalInt u.age),
   ("friend", .text u.friend)]

/-- The record of a user. -/
def toValue (u : User) : Value := .record .user u.fields

/-- The record of the copy of a user that a right holds. -/
def toSnapshot (u : User) : Value := .record .userSnapshot u.fields

end User

/-- The record of a right. -/
def Right.toValue (r : Right) : Value :=
  .record .right [("right", .text r.right), ("user", r.user.toSnapshot)]

/-- The record of an app. -/
def App.toValue (a : App) : Value :=
  .record .app [("id", .int a.id), ("name", .text a.name), ("stars", .int a.stars),
    ("rights", .list (a.rights.map Right.toValue))]

/-- The record of a grant. -/
def RoleGrant.toValue (g : RoleGrant) : Value :=
  .record .roleGrant [("role", .text g.role), ("db", .text g.db)]

/-- The record of a database user. -/
def DatabaseUser.toValue (p : DatabaseUser) : Value :=
  .record .databaseUser [("user", .text p.user), ("pwd", .text p.pwd),
    ("roles", .list (p.roles.map RoleGrant.toValue))]

end InitialLoad
