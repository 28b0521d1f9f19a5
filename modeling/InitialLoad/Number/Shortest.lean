import InitialLoad.Number.Double
import InitialLoad.Text.Blank

/-!
# The shortest decimal form of a double

A double is written with the fewest significant digits that read back as the
same double; of several such decimals the nearest to the double is taken, and
of two equally near ones the even.  The decimals that read back are those
between the midpoints to the two neighbouring doubles, the midpoints themselves
included when the double's last binary digit is zero.

`DecimalStyle` holds the conventions of the written form: from which magnitude
on an exponent is used, and how many digits the exponent has at least.
-/

namespace InitialLoad

/-- Conventions for writing a decimal: it is positional while the place of the
point, counted from the first significant digit, is above `least` and at most
`most`; otherwise there is one digit before the point and an exponent of at
least `exponentDigits` digits. -/
structure DecimalStyle where
  least : Int
  most : Int
  exponentDigits : Nat

namespace Double

/-- Messages and answers are positional from one ten-thousandth up to sixteen
digits before the point. -/
def style : DecimalStyle := ⟨-4, 16, 2⟩

/-- The ends of the interval that reads back as a double of `units` units, in
quarters of a unit.  Below a power of two the spacing is halved, unless the
grid is already as fine as it gets. -/
def readBackEnds (units : Nat) : Nat × Nat :=
  let step := spacing units
  let below := if units = Nat.pow 2 (Nat.log2 units) ∧ 1 < step then step else 2 * step
  (4 * units - below, 4 * units + 2 * step)

/-- The magnitude as a ratio to a power of ten: `10 ^ exponent` is
`powerNum exponent / powerDen exponent`. -/
def powerNum (exponent : Int) : Nat := Nat.pow 10 exponent.toNat
def powerDen (exponent : Int) : Nat := Nat.pow 10 (-exponent).toNat

/-- The decimal `digits * 10 ^ exponent` reads back as a double of `units` units. -/
def readsBack (units digits : Nat) (exponent : Int) : Bool :=
  let ends := readBackEnds units
  let decimal := digits * powerNum exponent * (4 * one)
  let low := ends.1 * powerDen exponent
  let high := ends.2 * powerDen exponent
  if units / spacing units % 2 = 0 then low ≤ decimal && decimal ≤ high
  else low < decimal && decimal < high

/-- The number of zeros after the point before the first significant digit of a
magnitude below one. -/
def leadingZeros (units : Nat) : Nat → Nat
  | 0 => 0
  | bound + 1 => if one ≤ units * 10 then 0 else leadingZeros (units * 10) bound + 1

/-- The place of the point, counted from the first significant digit: the
magnitude is below `10 ^ place` and not below `10 ^ (place - 1)`. -/
def pointPlace (units : Nat) : Int :=
  if units < one then -(leadingZeros units 400 : Int)
  else (Nat.toDigits 10 (units / one)).length

/-- The decimal of the grid `10 ^ exponent` that reads back and is nearest. -/
def nearestOnGrid (units : Nat) (exponent : Int) : Option Nat :=
  let num := units * powerDen exponent
  let den := one * powerNum exponent
  let floor := num / den
  let nearest := roundedQuotient num den
  let other := if nearest = floor then floor + 1 else floor
  if readsBack units nearest exponent then some nearest
  else if readsBack units other exponent then some other
  else none

/-- The shortest decimal with at least `count` digits, `remaining` grids being left to try. -/
def shortestFrom (units : Nat) (place : Int) (count : Nat) : Nat → Nat × Int
  | 0 => (roundedQuotient (units * powerDen (place - count)) (one * powerNum (place - count)),
      place - count)
  | remaining + 1 =>
    match nearestOnGrid units (place - count) with
    | some digits => (digits, place - count)
    | none => shortestFrom units place (count + 1) remaining

/-- The shortest decimal that reads back: its digits as a number, and the
exponent of its last digit. -/
def shortest (units : Nat) : Nat × Int := shortestFrom units (pointPlace units) 1 16

/-- The digits `ds` with the point at `place`. -/
def writePositional (ds : Text) (place : Int) : Text :=
  if place ≤ 0 then
    Text.join ["0.", List.replicate (-place).toNat (CodePoint.ofChar '0'), ds]
  else if ds.length ≤ place.toNat then
    Text.join [ds, List.replicate (place.toNat - ds.length) (CodePoint.ofChar '0'), ".0"]
  else Text.join [ds.take place.toNat, ".", ds.drop place.toNat]

/-- The digits `ds` with one digit before the point and an exponent. -/
def writeExponent (style : DecimalStyle) (ds : Text) (place : Int) : Text :=
  let exponent := place - 1
  let digits := Text.ofNat exponent.natAbs
  let fraction : Text := if ds.length ≤ 1 then [] else CodePoint.ofChar '.' :: ds.drop 1
  Text.join [ds.take 1, fraction, if exponent < 0 then "e-" else "e+",
    List.replicate (style.exponentDigits - digits.length) (CodePoint.ofChar '0'), digits]

/-- The written form of a magnitude above zero. -/
def writeMagnitude (units : Nat) : Text :=
  let (digits, exponent) := shortest units
  let all := Text.ofNat digits
  let place := all.length + exponent
  let ds := Text.trimEnd (fun c => c.val == 0x30) all
  if style.least < place ∧ place ≤ style.most then writePositional ds place
  else writeExponent style ds place

/-- The written form of a double. -/
def toText : Double → Text
  | .nan => "nan"
  | .infinite negative => if negative then "-inf" else "inf"
  | .finite negative units =>
    Text.join [if negative then "-" else [], if units = 0 then "0.0" else writeMagnitude units]

end Double

end InitialLoad
