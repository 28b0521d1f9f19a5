import InitialLoad.Value.Basic

/-!
# Telling values apart

Whether two values are one and the same is decided constructor by constructor.
This is finer than the comparison of a query: one and true are two values, and
so are two objects whose entries come in a different order.
-/

namespace InitialLoad.Value

mutual

/-- The values are built alike. -/
def equal : Value → Value → Bool
  | .null, .null => true
  | .bool a, .bool b => a = b
  | .int a, .int b => a = b
  | .double a, .double b => a = b
  | .text a, .text b => a = b
  | .bytes a, .bytes b => a = b
  | .list as, .list bs => equalItems as bs
  | .tuple as, .tuple bs => equalItems as bs
  | .object as, .object bs => equalEntries as bs
  | .record k as, .record l bs => k = l && equalEntries as bs
  | _, _ => false

/-- The items are built alike, one by one. -/
def equalItems : List Value → List Value → Bool
  | [], [] => true
  | a :: as, b :: bs => equal a b && equalItems as bs
  | _, _ => false

/-- The entries have the same names and are built alike, one by one. -/
def equalEntries : List (Text × Value) → List (Text × Value) → Bool
  | [], [] => true
  | (m, a) :: as, (n, b) :: bs => m = n && equal a b && equalEntries as bs
  | _, _ => false

end

mutual

theorem equal_iff (v w : Value) : equal v w = true ↔ v = w := by
  cases v with
  | list items => cases w <;> simp [equal, equalItems_iff items]
  | tuple items => cases w <;> simp [equal, equalItems_iff items]
  | object entries => cases w <;> simp [equal, equalEntries_iff entries]
  | record kind fields => cases w <;> simp [equal, equalEntries_iff fields]
  | _ => cases w <;> simp [equal]

theorem equalItems_iff (as bs : List Value) : equalItems as bs = true ↔ as = bs := by
  cases as with
  | nil => cases bs <;> simp [equalItems]
  | cons a rest => cases bs <;> simp [equalItems, equal_iff a, equalItems_iff rest]

theorem equalEntries_iff (as bs : List (Text × Value)) :
    equalEntries as bs = true ↔ as = bs := by
  cases as with
  | nil => cases bs <;> simp [equalEntries]
  | cons entry rest =>
      cases bs <;> simp [equalEntries, equal_iff entry.2, equalEntries_iff rest, Prod.ext_iff]

end

instance : DecidableEq Value := fun v w => decidable_of_iff _ (equal_iff v w)

end InitialLoad.Value
