import InitialLoad.Value.Basic

/-!
# Faults in data

Data for an entity are read field by field, and every field that is missing or
of the wrong shape is a fault of its own: where it is, and why it was refused.
A fault has a short code for programs and a sentence for readers.
-/

namespace InitialLoad

/-- A step from a value to a part of it. -/
inductive PathStep where
  | field (name : Text)
  | item (index : Nat)
deriving DecidableEq, Repr

/-- Why a value was refused. -/
inductive FaultReason where
  | missing
  | notText
  | textNotUnicode
  | notInteger
  | malformedInteger
  | integerTooLong
  | fractional
  | notFinite
  | notList
  | notEntity (kind : Kind)
deriving DecidableEq, Repr

/-- A refused value and its place in the data. -/
structure Fault where
  path : List PathStep
  reason : FaultReason
deriving DecidableEq, Repr

namespace FaultReason

/-- The code of a reason. -/
def code : FaultReason → Text
  | .missing => "missing"
  | .notText => "string_type"
  | .textNotUnicode => "string_unicode"
  | .notInteger => "int_type"
  | .malformedInteger => "int_parsing"
  | .integerTooLong => "int_parsing_size"
  | .fractional => "int_from_float"
  | .notFinite => "finite_number"
  | .notList => "list_type"
  | .notEntity _ => "model_type"

/-- The sentence for a reason. -/
def message : FaultReason → Text
  | .missing => "Field required"
  | .notText => "Input should be a valid string"
  | .textNotUnicode =>
    "Input should be a valid string, unable to parse raw data as a unicode string"
  | .notInteger => "Input should be a valid integer"
  | .malformedInteger => "Input should be a valid integer, unable to parse string as an integer"
  | .integerTooLong => "Unable to parse input string as an integer, exceeded maximum size"
  | .fractional => "Input should be a valid integer, got a number with a fractional part"
  | .notFinite => "Input should be a finite number"
  | .notList => "Input should be a valid list"
  | .notEntity kind =>
    Text.join ["Input should be a valid dictionary or instance of ", kind.name]

end FaultReason

/-- The fault as part of a larger value. -/
def Fault.under (step : PathStep) (fault : Fault) : Fault := { fault with path := step :: fault.path }

/-- A step as a reader sees it. -/
def PathStep.wording : PathStep → Text
  | .field name => name
  | .item index => Text.ofNat index

/-- A fault as a reader sees it: its place, then the sentence and the code. -/
def Fault.wording (fault : Fault) : Text :=
  Text.join [Text.separated "." (fault.path.map PathStep.wording), "\n  ", fault.reason.message,
    " [type=", fault.reason.code, "]"]

end InitialLoad
