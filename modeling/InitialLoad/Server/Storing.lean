import InitialLoad.Failure

/-!
# What can be written

A call is written in a format of plain data with eight-byte integers and UTF-8
text, so a value outside it has an obstacle: the first thing met that cannot be
written.  What is stored has no tuples: they become lists.
-/

namespace InitialLoad.Value

/-- An integer of eight bytes. -/
def fitsEightBytes (n : Int) : Bool := -(Int.pow 2 63) ≤ n && n < Int.pow 2 63

/-- The positions of the first surrogates in a row, first and last, if there
are any; `position` is that of the first code point of the text. -/
def surrogateRun? (position : Nat) : Text → Option (Nat × Nat)
  | [] => none
  | c :: rest =>
    if c.isSurrogate then
      some (position, position + (rest.takeWhile (·.isSurrogate)).length)
    else surrogateRun? (position + 1) rest

/-- Why a text cannot be written. -/
def textObstacle? (t : Text) : Option Problem :=
  (surrogateRun? 0 t).map fun run => .unencodable t run.1 run.2

mutual

/-- Why a value cannot be written: the first reason met. -/
def obstacle? : Value → Option Problem
  | .int n => if fitsEightBytes n then none else some .integerTooLarge
  | .text t => textObstacle? t
  | .list items => obstacleInItems? items
  | .tuple items => obstacleInItems? items
  | .object entries => obstacleInEntries? entries
  | .record kind fields => some (.unwritable kind fields)
  | _ => none

/-- Why one of the items cannot be written. -/
def obstacleInItems? : List Value → Option Problem
  | [] => none
  | v :: rest =>
    match obstacle? v with
    | some problem => some problem
    | none => obstacleInItems? rest

/-- Why one of the entries cannot be written. -/
def obstacleInEntries? : List (Text × Value) → Option Problem
  | [] => none
  | (name, v) :: rest =>
    match textObstacle? name with
    | some problem => some problem
    | none =>
      match obstacle? v with
      | some problem => some problem
      | none => obstacleInEntries? rest

end

mutual

/-- The value as it is stored, lists in place of tuples. -/
def stored : Value → Value
  | .list items => .list (storedItems items)
  | .tuple items => .list (storedItems items)
  | .object entries => .object (storedEntries entries)
  | .record kind fields => .record kind (storedEntries fields)
  | v => v

/-- The items as they are stored. -/
def storedItems : List Value → List Value
  | [] => []
  | v :: rest => stored v :: storedItems rest

/-- The entries as they are stored. -/
def storedEntries : List (Text × Value) → List (Text × Value)
  | [] => []
  | (name, v) :: rest => (name, stored v) :: storedEntries rest

end

end InitialLoad.Value
