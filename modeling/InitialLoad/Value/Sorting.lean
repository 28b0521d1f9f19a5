import InitialLoad.Value.Order

/-!
# Sorting values

Values are sorted stably into ascending order.  The longest run at the start
that is already in order, or strictly in reverse order, is taken as it is; every
later value is put in its place by halving.  A pair without an order stops the
sort, and which pair is met first is fixed by this procedure.
-/

namespace InitialLoad.Value

/-- Puts a value into a sorted list, after all that are not above it.  Each
comparison halves the list, so `steps` need not exceed its length. -/
def insertSorted (v : Value) : Nat → List Value → Except Incomparable (List Value)
  | 0, sorted => .ok (v :: sorted)
  | steps + 1, sorted =>
    match sorted.drop (sorted.length / 2) with
    | [] => .ok [v]
    | middle :: above =>
      let below := sorted.take (sorted.length / 2)
      match less v middle with
      | .error clash => .error clash
      | .ok true => (insertSorted v steps below).map (· ++ middle :: above)
      | .ok false => (insertSorted v steps above).map (below ++ middle :: ·)

/-- Extends a run that ends with `last`, and gives it in ascending order with
what follows it. -/
def extendRun (descending : Bool) (run : List Value) (last : Value) :
    List Value → Except Incomparable (List Value × List Value)
  | [] => .ok (run, [])
  | v :: rest =>
    match less v last with
    | .error clash => .error clash
    | .ok b =>
      if b = descending then
        extendRun descending (if descending then v :: run else run ++ [v]) v rest
      else .ok (run, v :: rest)

/-- The run at the start, in ascending order, and what follows it. -/
def firstRun : List Value → Except Incomparable (List Value × List Value)
  | a :: b :: rest =>
    match less b a with
    | .error clash => .error clash
    | .ok descending =>
      extendRun descending (if descending then [b, a] else [a, b]) b rest
  | short => .ok (short, [])

/-- Puts the values into the sorted list one by one. -/
def insertAll : List Value → List Value → Except Incomparable (List Value)
  | sorted, [] => .ok sorted
  | sorted, v :: rest =>
    match insertSorted v sorted.length sorted with
    | .error clash => .error clash
    | .ok longer => insertAll longer rest

/-- The values in ascending order, or the first pair met that has no order. -/
def sorted (values : List Value) : Except Incomparable (List Value) :=
  match firstRun values with
  | .error clash => .error clash
  | .ok (run, rest) => insertAll run rest

end InitialLoad.Value
