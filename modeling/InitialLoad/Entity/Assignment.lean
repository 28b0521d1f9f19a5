import InitialLoad.Failure
import InitialLoad.Entity.Document

/-!
# Unchecked assignments

A record can be changed after it was read: a field at any depth, an item of a
list, or one more item at the end of a list.  Nothing checks the new value; only
the way to it has to exist.
-/

namespace InitialLoad

/-- One step on the way to the place of an assignment.  A negative position
counts from the end. -/
inductive AccessStep where
  | field (name : Text)
  | item (position : Int)
deriving DecidableEq, Repr

/-- What is assigned to at the end of the way. -/
inductive AssignmentTarget where
  | field (name : Text)
  | item (position : Int)
  | append
deriving DecidableEq, Repr

/-- An assignment of a value to a place inside a record. -/
structure Assignment where
  way : List AccessStep
  target : AssignmentTarget
  value : Value

namespace Value

/-- A position counted from the start, if the sequence has it. -/
def position? (length : Nat) (position : Int) : Option Nat :=
  if 0 ≤ position then (if position < length then some position.toNat else none)
  else if -length ≤ position then some (position + length).toNat else none

/-- What is said of a position that a sequence does not have. -/
def outOfRange (v : Value) (action : Text) : Failure :=
  Failure.of (.outOfRange (Text.join [v.typeName, " ", action, " out of range"]))

/-- What is said of a type that does not support an action. -/
def unsupported (v : Value) (action : Text) : Failure :=
  Failure.of (.unsupported (Text.join ["'", v.typeName, "' object ", action]))

/-- Changes the item of a sequence. -/
def changeItem (items : List Value) (i : Nat) (change : Value → Except Failure Value) :
    Except Failure (List Value) :=
  match items[i]? with
  | some v => (change v).map (items.set i)
  | none => .ok items

/-- Goes one step and changes what is there. -/
def changeAt (v : Value) (step : AccessStep) (change : Value → Except Failure Value) :
    Except Failure Value :=
  match step, v with
  | .field name, .record kind fields =>
    match Entries.get? name fields with
    | some w => (change w).map fun new => .record kind (Entries.put name new fields)
    | none => .error (Failure.of (.missingAttribute kind.name name))
  | .field name, v => .error (Failure.of (.missingAttribute v.typeName name))
  | .item i, .list vs =>
    match position? vs.length i with
    | some n => (changeItem vs n change).map .list
    | none => .error ((Value.list vs).outOfRange "index")
  | .item i, .tuple vs =>
    match position? vs.length i with
    | some n => (changeItem vs n change).map .tuple
    | none => .error ((Value.tuple vs).outOfRange "index")
  | .item i, .object _ => .error (Failure.of (.missingKey (.int i)))
  | .item _, v => .error (v.unsupported "is not subscriptable")

/-- Assigns to a part of the value itself. -/
def assignTo (v : Value) (target : AssignmentTarget) (new : Value) : Except Failure Value :=
  match target, v with
  | .field name, .record kind fields =>
    match Entries.get? name fields with
    | some _ => .ok (.record kind (Entries.put name new fields))
    | none => .error (Failure.of (.unknownField kind name))
  | .field name, v => .error (Failure.of (.missingAttribute v.typeName name))
  | .item i, .list vs =>
    match position? vs.length i with
    | some n => .ok (.list (vs.set n new))
    | none => .error ((Value.list vs).outOfRange "assignment index")
  | .item _, v => .error (v.unsupported "does not support item assignment")
  | .append, .list vs => .ok (.list (vs ++ [new]))
  | .append, v => .error (Failure.of (.missingAttribute v.typeName "append"))

/-- Goes the way and assigns at its end. -/
def assignAlong (target : AssignmentTarget) (new : Value) :
    List AccessStep → Value → Except Failure Value
  | [], v => v.assignTo target new
  | step :: way, v => v.changeAt step (assignAlong target new way)

/-- Makes one assignment. -/
def assign (v : Value) (a : Assignment) : Except Failure Value :=
  assignAlong a.target a.value a.way v

/-- Makes assignments one after the other. -/
def assignAll (v : Value) : List Assignment → Except Failure Value
  | [] => .ok v
  | a :: rest => do
    let changed ← v.assign a
    changed.assignAll rest

end Value

end InitialLoad
