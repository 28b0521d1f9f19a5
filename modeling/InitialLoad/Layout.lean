import InitialLoad.Value.Basic

/-!
# The layout of the app store database

Apps and users live in a collection each, and each collection has a table of
index definitions.  A definition is written as entries: `keys` names the keys of
the index, and every other entry is an option for the server.
-/

namespace InitialLoad

/-- The index definitions of each collection, in the order of creation. -/
abbrev IndexTable := List (Text × List Document)

namespace Layout

/-- The name of the database. -/
def databaseName : Text := "appstore"

/-- The collection of apps. -/
def apps : Text := "apps"

/-- The collection of users. -/
def users : Text := "users"

/-- The identifier, ascending. -/
def idKeys : Value := .list [.tuple [.text "id", .int 1]]

/-- The index that admits every identifier once. -/
def uniqueId : Document := [("keys", idKeys), ("unique", .bool true)]

/-- The declared indexes: identifiers are unique in both collections. -/
def declaredIndexes : IndexTable := [(apps, [uniqueId]), (users, [uniqueId])]

end Layout

end InitialLoad
