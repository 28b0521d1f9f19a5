import InitialLoad.Server.Request

/-!
# Collections

A collection holds documents in the order of their insertion, and indexes.  A
unique index admits each key once; a field that a document does not have counts
as null, and a sparse index passes over a document that has none of its fields.

An operation that is refused leaves the collection as it was, because it gives
no new one.
-/

namespace InitialLoad

/-- An index of a collection; `others` are the options beside its name and the two marks. -/
structure Index where
  name : Text
  keys : List IndexKey
  unique : Bool
  sparse : Bool
  others : Document
deriving DecidableEq

namespace Index

/-- The name of an index that is not given one: its fields and directions. -/
def defaultName (keys : List IndexKey) : Text :=
  Text.separated "_" (keys.map fun key => Text.join [key.field, "_", key.direction.wording])

/-- An option that is present and not empty. -/
def isSet (name : Text) (options : Document) : Bool :=
  match options.get? name with
  | some v => !v.isEmpty
  | none => false

/-- The options that make two indexes differ beside their names and marks. -/
def otherOptions (options : Document) : Document :=
  ((options.erase "name").erase "unique").erase "sparse"

/-- The index over these keys with these options. -/
def ofOptions (keys : List IndexKey) (options : Document) : Index :=
  let name := match options.get? "name" with
    | some (.text t) => t
    | _ => defaultName keys
  ⟨name, keys, isSet "unique" options, isSet "sparse" options, otherOptions options⟩

/-- The index that a call describes, if its keys can be read. -/
def described? (keys : Value) (options : Document) : Option Index :=
  (IndexKey.readAll? keys).map fun keys => ofOptions keys options

/-- What is said of keys that cannot be read. -/
def unreadableKeys : Failure :=
  Failure.of (.unsupported
    "if no direction is specified, key_or_list must be an instance of list")

/-- The values of the index's fields in a document, null for an absent one. -/
def key (index : Index) (doc : Document) : List Value :=
  index.keys.map fun k => (doc.get? k.field).getD .null

/-- The values under which the index lists a document, if it does: a sparse
index passes over the fields that the document does not have. -/
def listedKey? (index : Index) (doc : Document) : Option (List Value) :=
  if index.sparse then
    match index.keys.filterMap fun k => doc.get? k.field with
    | [] => none
    | values => some values
  else some (index.key doc)

end Index

/-- The value is the one that is looked for, or a list that has it as an item. -/
def Value.isOrHas (v : Value) : Value → Bool
  | .list items => (Value.list items).same v || items.any fun item => item.same v
  | w => w.same v

/-- The field of a document matches this value; an absent field is the same as null. -/
def fieldIs (name : Text) (v : Value) (doc : Document) : Bool :=
  match doc.get? name with
  | some w => v.isOrHas w
  | none => v.isNull

/-- Documents in order of insertion, and the indexes over them. -/
structure Collection where
  documents : List Document := []
  indexes : List Index := []

namespace Collection

/-- The collection that has nothing yet. -/
def empty : Collection := ⟨[], []⟩

/-- The documents have the same key in the index. -/
def sameKey (index : Index) (doc other : Document) : Bool :=
  index.keys.all fun k => fieldIs k.field ((doc.get? k.field).getD .null) other

/-- The index refuses the document beside the others. -/
def refuses (others : List Document) (doc : Document) (index : Index) : Bool :=
  index.unique && !(index.sparse && (index.key doc).all Value.isNull) &&
    others.any (sameKey index doc)

/-- What is said of a document that repeats the key of an index. -/
def repeatedKey (index : Index) (doc : Document) : Problem :=
  let values : Document := index.keys.foldl
    (fun es k => es.put k.field ((doc.get? k.field).getD .null)) []
  let pattern : Document := index.keys.foldl (fun es k => es.put k.field k.direction) []
  .duplicateKey (Text.join ["E11000 Duplicate Key Error, full error: ",
    (Value.object [("keyValue", .object values), ("keyPattern", .object pattern)]).literal])

/-- Adds a document at the end. -/
def insert (doc : Document) (c : Collection) : Except Failure Collection :=
  let doc := Value.storedEntries doc
  match c.indexes.find? (refuses c.documents doc) with
  | some index => .error (Failure.of (repeatedKey index doc))
  | none => .ok { c with documents := c.documents ++ [doc] }

/-- The first document whose field matches this value. -/
def find? (name : Text) (v : Value) (c : Collection) : Option Document :=
  c.documents.find? (fieldIs name v)

/-- The field of every document that has it, as a document of that field alone. -/
def project (name : Text) (c : Collection) : List Document :=
  c.documents.filterMap fun doc => (doc.get? name).map fun v => [(name, v)]

/-- The first of the keys that is the same as an earlier one; `seen` are the earlier ones. -/
def firstRepeated? (seen : List (List Value)) : List (List Value) → Option (List Value)
  | [] => none
  | key :: rest =>
    if seen.any (Value.sameItems key) then some key else firstRepeated? (key :: seen) rest

/-- The keys under which an index would list the documents. -/
def listedKeys (index : Index) (c : Collection) : List (List Value) :=
  c.documents.filterMap index.listedKey?

/-- The type of the first value that cannot be looked up in a set. -/
def unhashable? : List Value → Option Text
  | [] => none
  | .list _ :: _ => some "list"
  | .object _ :: _ => some "dict"
  | _ :: rest => unhashable? rest

/-- What is said of a unique index over documents that repeat a key. -/
def repeatedInDocuments (key : List Value) : Failure :=
  let problem := Problem.duplicateKey "E11000 Duplicate Key Error"
  match unhashable? key with
  | none => Failure.of problem
  | some typeName =>
    Failure.because problem (Failure.of (.unsupported
      (Text.join ["unhashable type: '", typeName, "'"])))

/-- Creates an index.  One of the same name must be identical, and the
documents must not repeat a key of a unique one. -/
def createIndex (index : Index) (c : Collection) : Except Failure Collection :=
  let existing := c.indexes.find? fun other => other.name = index.name
  if existing.any fun other => other ≠ index then
    .error (Failure.of (.refused .operation (Text.join ["Index with name: ", index.name,
      " already exists with different options"]) none))
  else
    match if index.unique then firstRepeated? [] (c.listedKeys index) else none with
    | some key => .error (repeatedInDocuments key)
    | none =>
      .ok (if existing.isSome then c else { c with indexes := c.indexes ++ [index] })

/-- Creates the index that a call describes. -/
def createDescribed (keys : Value) (options : Document) (c : Collection) :
    Except Failure Collection :=
  match Index.described? keys options with
  | some index => c.createIndex index
  | none => .error Index.unreadableKeys

theorem createDescribed_ok {keys : Value} {options : Document} {c d : Collection} :
    c.createDescribed keys options = .ok d ↔
      ∃ index, Index.described? keys options = some index ∧ c.createIndex index = .ok d := by
  unfold createDescribed
  cases Index.described? keys options <;> simp

/-- Assigns fields of the first document with an identifier, and says how many
documents that were. -/
def assignFirst (id : Value) (changes : Document) (c : Collection) :
    Except Failure (Nat × Collection) :=
  match c.documents.findIdx? (fieldIs "id" id) with
  | none => .ok (0, c)
  | some i =>
    let doc := Entries.putAll (Value.storedEntries changes) (c.documents[i]?.getD [])
    match c.indexes.find? (refuses (c.documents.eraseIdx i) doc) with
    | some index => .error (Failure.of (repeatedKey index doc))
    | none => .ok (1, { c with documents := c.documents.set i doc })

/-- Removes every document with an identifier, and says how many those were. -/
def removeAll (id : Value) (c : Collection) : Nat × Collection :=
  let kept := c.documents.filter fun doc => !fieldIs "id" id doc
  (c.documents.length - kept.length, { c with documents := kept })

/-- The index over the identity that the server gives to every document. -/
def identityIndex : Index := ⟨"_id_", [⟨"_id", .int 1⟩], false, false, []⟩

/-- Every index in the order of names.  The one over the server's identity
appears as soon as the collection holds anything. -/
def indexList (c : Collection) : List Index :=
  if c.documents.isEmpty && c.indexes.isEmpty then []
  else (identityIndex :: c.indexes).mergeSort fun a b => !b.name.before a.name

end Collection

end InitialLoad
