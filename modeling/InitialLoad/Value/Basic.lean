import InitialLoad.Number.Double
import InitialLoad.Text.Quoted
import InitialLoad.Value.Entries

/-!
# Values

What a field of a document may hold.  Besides the plain data of a document
there are records: instances of one of the six kinds of entity that the loader
knows.  A validated record has a value of the declared type in every field, but
a record may have been changed afterwards without any check, so a field may
hold any value at all.
-/

namespace InitialLoad

/-- The kinds of entity. -/
inductive Kind where
  | app
  | right
  | user
  | userSnapshot
  | roleGrant
  | databaseUser
deriving DecidableEq, Repr

/-- The name of a kind in messages. -/
def Kind.name : Kind → Text
  | .app => "App"
  | .right => "Right"
  | .user => "User"
  | .userSnapshot => "UserSnapshot"
  | .roleGrant => "RoleGrant"
  | .databaseUser => "DatabaseUser"

/-- The full name of a kind: where it is declared, and its name. -/
def Kind.fullName (kind : Kind) : Text :=
  let home : Text := match kind with
    | .app | .right | .userSnapshot => "appstore_seed.models.app."
    | .user => "appstore_seed.models.user."
    | .roleGrant | .databaseUser => "appstore_seed.models.principal."
  home ++ kind.name

/-- A value: a scalar, a sequence, an object, or a record of some kind.  A
tuple is a sequence that cannot be changed. -/
inductive Value where
  | null
  | bool (b : Bool)
  | int (n : Int)
  | double (d : Double)
  | text (t : Text)
  | bytes (b : Bytes)
  | list (items : List Value)
  | tuple (items : List Value)
  | object (entries : List (Text × Value))
  | record (kind : Kind) (fields : List (Text × Value))
deriving Inhabited

/-- The fields of a stored document. -/
abbrev Document := Entries Value

namespace Value

/-- The name of a value's type in messages. -/
def typeName : Value → Text
  | .null => "NoneType"
  | .bool _ => "bool"
  | .int _ => "int"
  | .double _ => "float"
  | .text _ => "str"
  | .bytes _ => "bytes"
  | .list _ => "list"
  | .tuple _ => "tuple"
  | .object _ => "dict"
  | .record kind _ => kind.name

/-- Null, false, a zero or something without content; a record never is. -/
def isEmpty : Value → Bool
  | .null => true
  | .bool b => !b
  | .int n => n == 0
  | .double d => d.isZero
  | .text t => t.isEmpty
  | .bytes b => b.isEmpty
  | .list items => items.isEmpty
  | .tuple items => items.isEmpty
  | .object entries => entries.isEmpty
  | .record _ _ => false

/-- The fields of a record one after the other, each a pair of its name and its value. -/
def pairs (fields : List (Text × Value)) : List Value :=
  fields.map fun field => .tuple [.text field.1, field.2]

/-- Null, and nothing else. -/
def isNull : Value → Bool
  | .null => true
  | _ => false

end Value

end InitialLoad
