import InitialLoad.Layout
import InitialLoad.Server.Storing
import InitialLoad.Value.Equality

/-!
# Requests to the server

The calls that reach a database server, and the type of the answer to each.
`CallPoint` groups them by the point of the interface that they use.

A call carries values that its caller chose.  They have to be written before
the server can have them: `Request.obstacle?` says why a call cannot be written.
-/

namespace InitialLoad

/-- A collection of a database. -/
structure Place where
  database : Text
  collection : Text
deriving DecidableEq, Repr

/-- A field that an index orders, and the direction. -/
structure IndexKey where
  field : Text
  direction : Value
deriving DecidableEq

namespace IndexKey

/-- The key that is written as one item: a field with its direction, or a field alone,
which is ascending. -/
def read? : Value → Option IndexKey
  | .text field => some ⟨field, .int 1⟩
  | .list [.text field, direction] => some ⟨field, direction⟩
  | .tuple [.text field, direction] => some ⟨field, direction⟩
  | _ => none

/-- The keys that are written as a value: one field, a sequence of keys, or an object of
fields and directions. -/
def readAll? : Value → Option (List IndexKey)
  | .text field => some [⟨field, .int 1⟩]
  | .list items => items.mapM read?
  | .tuple items => items.mapM read?
  | .object entries => some (entries.map fun entry => ⟨entry.1, entry.2⟩)
  | _ => none

end IndexKey

/-- A call to the server. -/
inductive Request where
  /-- A client is made for an address. -/
  | connect (uri : Text)
  /-- The client is given up. -/
  | close
  /-- The server is asked for a sign of life. -/
  | ping
  /-- A database user is created. -/
  | createUser (database : Text) (user pwd : Value) (roles : List Value)
  /-- An index is created, over the keys that are written as this value. -/
  | createIndex (place : Place) (keys : Value) (options : Document)
  /-- A document is added. -/
  | insertOne (place : Place) (document : Document)
  /-- The first document with an identifier is asked for. -/
  | findOne (place : Place) (id : Value)
  /-- The identifiers of all documents that have one are asked for. -/
  | findIds (place : Place)

namespace Request

/-- The answer to a call that succeeds. -/
abbrev Answer : Request → Type
  | .connect _ => Unit
  | .close => Unit
  | .ping => Document
  | .createUser _ _ _ _ => Unit
  | .createIndex _ _ _ => Unit
  | .insertOne _ _ => Unit
  | .findOne _ _ => Option Document
  | .findIds _ => List Document

/-- Why a call cannot be written.  Keys that cannot be read never get that far. -/
def obstacle? : Request → Option Problem
  | .createUser _ user pwd roles => Value.obstacleInItems? (user :: pwd :: roles)
  | .createIndex _ keys options =>
    if (IndexKey.readAll? keys).isSome then Value.obstacleInItems? [keys, .object options] else none
  | .insertOne _ doc => Value.obstacleInEntries? doc
  | .findOne _ id => id.obstacle?
  | _ => none

end Request

/-- The points of the interface. -/
inductive CallPoint where
  | connect
  | close
  | command
  | createIndex
  | insertOne
  | findOne
  | find
deriving DecidableEq, Repr

/-- The point that a call uses. -/
def Request.point : Request → CallPoint
  | .connect _ => .connect
  | .close => .close
  | .ping => .command
  | .createUser _ _ _ _ => .command
  | .createIndex _ _ _ => .createIndex
  | .insertOne _ _ => .insertOne
  | .findOne _ _ => .findOne
  | .findIds _ => .find

end InitialLoad
