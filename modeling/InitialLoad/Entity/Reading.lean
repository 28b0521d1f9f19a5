import InitialLoad.Entity.Basic
import InitialLoad.Failure
import InitialLoad.Number.Numeral

/-!
# Reading entities from data

Each kind of entity declares its fields: how the value of a field is read, and
what stands in for a field that is absent.  Reading an entity reads every
declared field and collects all faults, in the order of the declaration and of
list positions; entries that are no field are passed over.  A record of the
right kind is taken as it is.

The readers of single values are lenient: an integer may come as a truth value,
as a whole double, as a numeral or as the bytes of one; a text may come as the
bytes of UTF-8.
-/

namespace InitialLoad

/-- What was read, or every fault that was met. -/
abbrev Reading (α : Type) := Except (List Fault) α

namespace Reading

variable {α : Type}

/-- A single fault at the value itself. -/
def refuse (reason : FaultReason) : Reading α := .error [⟨[], reason⟩]

/-- The reading of a part, its faults placed inside the whole. -/
def under (step : PathStep) : Reading α → Reading α
  | .ok a => .ok a
  | .error faults => .error (faults.map (Fault.under step))

/-- All parts, or the faults of all parts. -/
def gather : List (Reading α) → Reading (List α)
  | [] => .ok []
  | .ok a :: rest =>
    match gather rest with
    | .ok more => .ok (a :: more)
    | .error faults => .error faults
  | .error faults :: rest =>
    match gather rest with
    | .ok _ => .error faults
    | .error more => .error (faults ++ more)

end Reading

namespace Value

/-- Whole doubles are integers only strictly between these bounds. -/
def wholeBound : Int := Int.pow 2 63

/-- An integer from a double. -/
def integerOfDouble (d : Double) : Reading Int :=
  match d with
  | .finite _ _ =>
    match d.toInt? with
    | none => Reading.refuse .fractional
    | some n =>
      if -wholeBound < n ∧ n < wholeBound then .ok n else Reading.refuse .integerTooLong
  | _ => Reading.refuse .notFinite

/-- An integer from a numeral. -/
def integerOfText (t : Text) : Reading Int :=
  if !t.wellFormed then Reading.refuse .textNotUnicode
  else match Numeral.integer? t with
    | .ok n => .ok n
    | .error .malformed => Reading.refuse .malformedInteger
    | .error .tooLong => Reading.refuse .integerTooLong

/-- Reads an integer. -/
def readInteger : Value → Reading Int
  | .bool b => .ok (if b then 1 else 0)
  | .int n => .ok n
  | .double d => integerOfDouble d
  | .text t => integerOfText t
  | .bytes b =>
    match Utf8.decode b with
    | .ok t => integerOfText t
    | .error _ => Reading.refuse .malformedInteger
  | _ => Reading.refuse .notInteger

/-- Reads a text. -/
def readText : Value → Reading Text
  | .text t => .ok t
  | .bytes b =>
    match Utf8.decode b with
    | .ok t => .ok t
    | .error _ => Reading.refuse .textNotUnicode
  | _ => Reading.refuse .notText

/-- A field that holds an integer. -/
def integerField (v : Value) : Reading Value := v.readInteger.map .int

/-- A field that holds an integer or null. -/
def optionalIntegerField : Value → Reading Value
  | .null => .ok .null
  | v => v.integerField

/-- A field that holds a text. -/
def textField (v : Value) : Reading Value := v.readText.map .text

/-- The readings of the items of a list, each placed at its position. -/
def readItems (read : Value → Reading Value) (position : Nat) :
    List Value → List (Reading Value)
  | [] => []
  | v :: rest => (read v).under (.item position) :: readItems read (position + 1) rest

/-- A field that holds a list of what `read` accepts; a tuple will do, and a
record is gone through as the list of its pairs. -/
def listField (read : Value → Reading Value) : Value → Reading Value
  | .list items => (Reading.gather (readItems read 0 items)).map .list
  | .tuple items => (Reading.gather (readItems read 0 items)).map .list
  | .record _ fields => (Reading.gather (readItems read 0 (pairs fields))).map .list
  | _ => Reading.refuse .notList

end Value

/-- The declaration of a field: its name, how it is read, and what stands in
for it when it is absent.  A field without a stand-in is required. -/
structure FieldRule where
  name : Text
  read : Value → Reading Value
  standIn : Option Value := none

/-- Reads one declared field from data. -/
def FieldRule.apply (data : Document) (rule : FieldRule) : Reading (Text × Value) :=
  match data.get? rule.name with
  | some v => (Reading.under (.field rule.name) (rule.read v)).map fun w => (rule.name, w)
  | none =>
    match rule.standIn with
    | some v => .ok (rule.name, v)
    | none => .error [⟨[.field rule.name], .missing⟩]

/-- Reads all declared fields. -/
def readFields (rules : List FieldRule) (data : Document) : Reading Document :=
  Reading.gather (rules.map (FieldRule.apply data))

/-- A field that holds an entity: a record of the kind, or an object with its data. -/
def entityField (kind : Kind) (rules : List FieldRule) : Value → Reading Value
  | .object data => (readFields rules data).map (.record kind)
  | .record k fields =>
    if k = kind then .ok (.record k fields) else Reading.refuse (.notEntity kind)
  | _ => Reading.refuse (.notEntity kind)

/-- The fields of a user, and of the copy of a user. -/
def userRules : List FieldRule :=
  [⟨"id", Value.integerField, none⟩, ⟨"name", Value.textField, none⟩,
   ⟨"age", Value.optionalIntegerField, some .null⟩, ⟨"friend", Value.textField, none⟩]

/-- The fields of a right. -/
def rightRules : List FieldRule :=
  [⟨"right", Value.textField, none⟩, ⟨"user", entityField .userSnapshot userRules, none⟩]

/-- The fields of an app; it need not have rights. -/
def appRules : List FieldRule :=
  [⟨"id", Value.integerField, none⟩, ⟨"name", Value.textField, none⟩,
   ⟨"stars", Value.integerField, none⟩,
   ⟨"rights", Value.listField (entityField .right rightRules), some (.list [])⟩]

/-- The fields of a grant. -/
def roleGrantRules : List FieldRule :=
  [⟨"role", Value.textField, none⟩, ⟨"db", Value.textField, none⟩]

/-- The fields of a database user; it need not have grants. -/
def databaseUserRules : List FieldRule :=
  [⟨"user", Value.textField, none⟩, ⟨"pwd", Value.textField, none⟩,
   ⟨"roles", Value.listField (entityField .roleGrant roleGrantRules), some (.list [])⟩]

/-- The declared fields of a kind of entity. -/
def Kind.rules : Kind → List FieldRule
  | .app => appRules
  | .right => rightRules
  | .user => userRules
  | .userSnapshot => userRules
  | .roleGrant => roleGrantRules
  | .databaseUser => databaseUserRules

/-- The record of a kind that the data describe. -/
def Kind.read (kind : Kind) (data : Document) : Except Failure Value :=
  match readFields kind.rules data with
  | .ok fields => .ok (.record kind fields)
  | .error faults => .error (Failure.of (.invalid kind.name faults))

end InitialLoad
