import InitialLoad.Text.Basic

/-!
# Double-precision numbers, exactly

Every finite double is a whole number of units of `2 ^ -1074`, so a `Double` is
a sign and a natural number of units, an infinity, or not a number.  All
arithmetic on them is exact arithmetic on natural numbers followed by one
rounding: to the nearest double, a tie going to the even neighbour.
-/

namespace InitialLoad

/-- The quotient rounded to the nearest natural number, a half to the even one. -/
def roundedQuotient (num den : Nat) : Nat :=
  let quotient := num / den
  let twice := 2 * (num % den)
  if den < twice ∨ (twice = den ∧ quotient % 2 = 1) then quotient + 1 else quotient

/-- A double-precision number. -/
inductive Double where
  | nan
  | infinite (negative : Bool)
  | finite (negative : Bool) (units : Nat)
deriving DecidableEq, Repr

namespace Double

/-- The number of units in one. -/
def one : Nat := Nat.pow 2 1074

/-- The distance to the next double, in units, at a magnitude of `units`: a
double has 53 significant binary digits, and no finer grid than the unit. -/
def spacing (units : Nat) : Nat := Nat.pow 2 (Nat.log2 units + 1 - 53)

/-- The double nearest to a ratio; from `2 ^ 1024` on it is an infinity. -/
def ofRatio (negative : Bool) (num den : Nat) : Double :=
  let scaled := num * one
  let step := spacing (scaled / den)
  let units := roundedQuotient scaled (den * step) * step
  if Nat.log2 units < 1024 + 1074 then .finite negative units else .infinite negative

/-- The number itself when it is whole. -/
def toInt? : Double → Option Int
  | .finite negative units =>
    if units % one = 0 then
      some (if negative then -((units / one : Nat) : Int) else ((units / one : Nat) : Int))
    else none
  | _ => none

/-- Rounded to a number of decimal places, the exact binary value deciding. -/
def roundPlaces (places : Nat) : Double → Double
  | .finite negative units =>
    ofRatio negative (roundedQuotient (units * Nat.pow 10 places) one) (Nat.pow 10 places)
  | d => d

/-- A number of millionths. -/
def ofMicros (micros : Int) : Double :=
  ofRatio (micros < 0) micros.natAbs 1000000

/-- Equal to zero, whatever the sign. -/
def isZero : Double → Bool
  | .finite _ units => units == 0
  | _ => false

end Double

end InitialLoad
