import InitialLoad.Entity.Fault
import InitialLoad.Text.Utf8
import InitialLoad.Value.Order
import InitialLoad.Value.Wording

/-!
# Failures

Everything that can go wrong, as one type.  A `Problem` says what went wrong; a
`Failure` is a problem together with the chain of problems that caused it, the
immediate cause first.  Every problem has the name of its class and a message.

Two distinctions matter to the loader.  A refusal of the server carries a code
and belongs to one of four classes, and a cancellation is the one problem that
the loader does not turn into a report.
-/

namespace InitialLoad

/-- The classes of refusal by the server.  A repeated key is a write error, and
all four are failures of an operation. -/
inductive Refusal where
  | operation
  | write
  | duplicateKey
  | timeout
deriving DecidableEq, Repr

/-- The name of a class of refusal. -/
def Refusal.name : Refusal → Text
  | .operation => "OperationFailure"
  | .write => "WriteError"
  | .duplicateKey => "DuplicateKeyError"
  | .timeout => "ExecutionTimeout"

/-- Troubles of the connection or of its configuration. -/
inductive Trouble where
  | driver
  | reconnect
  | notPrimary
  | serverSelection
  | configuration
  | invalidName
  | runtime
deriving DecidableEq, Repr

/-- The name of a class of trouble. -/
def Trouble.name : Trouble → Text
  | .driver => "PyMongoError"
  | .reconnect => "AutoReconnect"
  | .notPrimary => "NotPrimaryError"
  | .serverSelection => "ServerSelectionTimeoutError"
  | .configuration => "ConfigurationError"
  | .invalidName => "InvalidName"
  | .runtime => "RuntimeError"

/-- What went wrong. -/
inductive Problem where
  /-- The principal or a document with the same identifier exists already. -/
  | duplicateEntity (kind key : Value)
  /-- The server refused an operation. -/
  | refused (refusal : Refusal) (message : Text) (code : Option Int)
  /-- The connection or its configuration does not work. -/
  | troubled (trouble : Trouble) (message : Text)
  /-- The work was cancelled from outside. -/
  | cancelled (message : Text)
  /-- A value is not acceptable. -/
  | unacceptable (message : Text)
  /-- Data do not have the shape of the entity with this title. -/
  | invalid (title : Text) (faults : List Fault)
  /-- Bytes that should be text are not UTF-8. -/
  | undecodable (fault : Utf8.Fault)
  /-- A text holds surrogates from the first to the last of these positions. -/
  | unencodable (text : Text) (first last : Nat)
  /-- An integer does not fit into eight bytes. -/
  | integerTooLarge
  /-- A record of this kind stands where only plain data can be written. -/
  | unwritable (kind : Kind) (fields : List (Text × Value))
  /-- No log level has this name. -/
  | unknownLevel (level : Value)
  /-- An entity of this kind has no such field to assign to. -/
  | unknownField (kind : Kind) (field : Text)
  /-- An object has no entry of this name. -/
  | missingKey (key : Value)
  /-- A value of this type has no such attribute. -/
  | missingAttribute (typeName member : Text)
  /-- A sequence has no such position. -/
  | outOfRange (message : Text)
  /-- Two values have no order. -/
  | incomparable (pair : Value.Incomparable)
  /-- A value of this type does not support what is asked of it. -/
  | unsupported (message : Text)
deriving Inhabited

namespace Problem

/-- The name of a problem's class. -/
def name : Problem → Text
  | .duplicateEntity _ _ => "DuplicateEntityError"
  | .refused refusal _ _ => refusal.name
  | .troubled trouble _ => trouble.name
  | .cancelled _ => "CancelledError"
  | .unacceptable _ => "ValueError"
  | .invalid _ _ => "ValidationError"
  | .undecodable _ => "UnicodeDecodeError"
  | .unencodable _ _ _ => "UnicodeEncodeError"
  | .integerTooLarge => "OverflowError"
  | .unwritable _ _ => "InvalidDocument"
  | .unknownLevel _ => "ValueError"
  | .unknownField _ _ => "ValueError"
  | .missingKey _ => "KeyError"
  | .missingAttribute _ _ => "AttributeError"
  | .outOfRange _ => "IndexError"
  | .incomparable _ => "TypeError"
  | .unsupported _ => "TypeError"

/-- Which surrogates stand in the way of writing a text. -/
def surrogateReport (text : Text) (first last : Nat) : Text :=
  let culprit : Text :=
    if first = last then
      Text.join ["character '", (text.drop first).take 1 |>.flatMap fun c => Text.numberEscape c.val,
        "' in position ", Text.ofNat first]
    else Text.join ["characters in position ", Text.ofNat first, "-", Text.ofNat last]
  Text.join ["'utf-8' codec can't encode ", culprit, ": surrogates not allowed"]

/-- The message of a problem. -/
def message : Problem → Text
  | .duplicateEntity kind key => Text.join [kind.wording, " ", key.literal, " already exists"]
  | .refused _ message _ => message
  | .troubled _ message => message
  | .cancelled message => message
  | .unacceptable message => message
  | .invalid title faults =>
    Text.join [Text.ofNat faults.length, if faults.length = 1 then " validation error for "
      else " validation errors for ", title, (faults.map fun f => CodePoint.ofChar '\n' :: f.wording).flatten]
  | .undecodable fault => fault.message
  | .unencodable text first last => surrogateReport text first last
  | .integerTooLarge => "MongoDB can only handle up to 8-byte ints"
  | .unwritable kind fields =>
    Text.join ["cannot encode object: ", (Value.record kind fields).literal, ", of type: <class '",
      kind.fullName, "'>"]
  | .unknownLevel level => Text.join ["Invalid LOG_LEVEL: ", level.literal]
  | .unknownField kind field =>
    Text.join ["\"", kind.name, "\" object has no field \"", field, "\""]
  | .missingKey key => key.literal
  | .missingAttribute typeName member =>
    Text.join ["'", typeName, "' object has no attribute '", member, "'"]
  | .outOfRange message => message
  | .incomparable pair =>
    Text.join ["'<' not supported between instances of '", pair.left, "' and '", pair.right, "'"]
  | .unsupported message => message

/-- A cancellation is no ordinary problem: it is not reported but passed on. -/
def isCancellation : Problem → Bool
  | .cancelled _ => true
  | _ => false

/-- A value, or the text that should hold one, is not acceptable. -/
def isUnacceptable : Problem → Bool
  | .unacceptable _ => true
  | .invalid _ _ => true
  | .undecodable _ => true
  | .unencodable _ _ _ => true
  | .unknownLevel _ => true
  | .unknownField _ _ => true
  | _ => false

/-- The server refused because of a repeated key. -/
def isDuplicateKey : Problem → Bool
  | .refused .duplicateKey _ _ => true
  | _ => false

/-- The server refused an operation with this code. -/
def isRefusalWith (code : Int) : Problem → Bool
  | .refused _ _ (some c) => c = code
  | _ => false

/-- A document repeats a key of an index that admits each key once. -/
def duplicateKey (message : Text) : Problem := .refused .duplicateKey message (some 11000)

end Problem

/-- A problem and the chain of its causes, the immediate one first. -/
structure Failure where
  problem : Problem
  causes : List Problem := []
deriving Inhabited

namespace Failure

/-- A failure without a cause. -/
def of (problem : Problem) : Failure := ⟨problem, []⟩

/-- A problem that another failure brought about. -/
def because (problem : Problem) (cause : Failure) : Failure :=
  ⟨problem, cause.problem :: cause.causes⟩

/-- The immediate cause, as a failure of its own. -/
def cause? (f : Failure) : Option Failure :=
  match f.causes with
  | [] => none
  | problem :: causes => some ⟨problem, causes⟩

/-- The message of what went wrong. -/
def message (f : Failure) : Text := f.problem.message

theorem cause?_because (problem : Problem) (cause : Failure) :
    (because problem cause).cause? = some cause := rfl

theorem cause?_of (problem : Problem) : (of problem).cause? = none := rfl

end Failure

end InitialLoad
