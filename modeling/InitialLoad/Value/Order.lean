import InitialLoad.Value.Basic

/-!
# Equality and order of values

Numbers are compared by value, whatever their type: one, one point zero and
true are the same.  Text is compared by code points, byte strings by bytes,
sequences item by item; objects are the same when they have the same names with
the same values, in any order.

Only numbers with numbers, text with text, byte strings with byte strings and
sequences of one type have an order.  `less` reports the two types when it is
asked for any other pair.
-/

namespace InitialLoad

/-- The place of a number on the number line. -/
inductive Magnitude where
  | undefined
  | bottom
  | units (n : Int)
  | top
deriving DecidableEq

namespace Magnitude

/-- Not a number is the same as nothing, not even itself. -/
def same : Magnitude → Magnitude → Bool
  | .undefined, _ => false
  | a, b => a = b

/-- Not a number is neither below nor above anything. -/
def less : Magnitude → Magnitude → Bool
  | .units a, .units b => a < b
  | .bottom, .units _ => true
  | .bottom, .top => true
  | .units _, .top => true
  | _, _ => false

end Magnitude

/-- The place of a double. -/
def Double.magnitude : Double → Magnitude
  | .nan => .undefined
  | .infinite negative => if negative then .bottom else .top
  | .finite negative units => .units (if negative then -(units : Int) else units)

namespace Value

/-- The place of a value that is a number. -/
def magnitude? : Value → Option Magnitude
  | .bool b => some (.units (if b then Double.one else 0))
  | .int n => some (.units (n * Double.one))
  | .double d => some d.magnitude
  | _ => none

/-- The value of a whole number: true counts as one and false as zero. -/
def whole? : Value → Option Int
  | .bool b => some (if b then 1 else 0)
  | .int n => some n
  | _ => none

/-- Both are numbers, and of the same value. -/
def sameNumber (a b : Value) : Bool :=
  match a.whole?, b.whole? with
  | some x, some y => x = y
  | _, _ =>
    match a.magnitude?, b.magnitude? with
    | some x, some y => x.same y
    | _, _ => false

mutual

/-- The same value, numbers being compared across their types. -/
def same : Value → Value → Bool
  | .null, .null => true
  | .text a, .text b => a = b
  | .bytes a, .bytes b => a = b
  | .list as, .list bs => sameItems as bs
  | .tuple as, .tuple bs => sameItems as bs
  | .object as, .object bs => as.length == bs.length && sameEntries as bs
  | .record k as, .record l bs => k = l && as.length == bs.length && sameEntries as bs
  | a, b => sameNumber a b

/-- The same items in the same order. -/
def sameItems : List Value → List Value → Bool
  | [], [] => true
  | a :: as, b :: bs => same a b && sameItems as bs
  | _, _ => false

/-- Every entry of the first has its like in the second. -/
def sameEntries : List (Text × Value) → List (Text × Value) → Bool
  | [], _ => true
  | (name, a) :: as, bs =>
    (match Entries.get? name bs with
      | some b => same a b
      | none => false) && sameEntries as bs

end

/-- Two values between which no order is defined, by the names of their types. -/
structure Incomparable where
  left : Text
  right : Text
deriving DecidableEq, Repr

/-- Byte strings in the order of their first difference. -/
def bytesLess : Bytes → Bytes → Bool
  | _, [] => false
  | [], _ :: _ => true
  | a :: as, b :: bs => a < b || (a == b && bytesLess as bs)

/-- The order of two numbers; no other pair that gets here has one. -/
def lessNumber (a b : Value) : Except Incomparable Bool :=
  match a.whole?, b.whole? with
  | some x, some y => .ok (x < y)
  | _, _ =>
    match a.magnitude?, b.magnitude? with
    | some x, some y => .ok (x.less y)
    | _, _ => .error ⟨a.typeName, b.typeName⟩

mutual

/-- The first value comes before the second. -/
def less : Value → Value → Except Incomparable Bool
  | .text a, .text b => .ok (a.before b)
  | .bytes a, .bytes b => .ok (bytesLess a b)
  | .list as, .list bs => lessItems as bs
  | .tuple as, .tuple bs => lessItems as bs
  | a, b => lessNumber a b

/-- The first items that are not the same decide; a proper beginning comes first. -/
def lessItems : List Value → List Value → Except Incomparable Bool
  | _, [] => .ok false
  | [], _ :: _ => .ok true
  | a :: as, b :: bs => if same a b then lessItems as bs else less a b

end

end Value

end InitialLoad
