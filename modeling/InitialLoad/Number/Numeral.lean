import InitialLoad.Number.Double
import InitialLoad.Text.Blank

/-!
# Numerals

Two readers of numerals.  `Numeral.integer?` reads a whole number leniently:
white space around it, one sign, single underscores between digits and a
fraction of zeros are allowed.  `Numeral.double?` reads a decimal with an
optional fraction and exponent, an infinity or not-a-number, and rounds it to
the nearest double.
-/

namespace InitialLoad.Numeral

/-- The value of a sequence of digits. -/
def value (digits : Text) : Nat := digits.foldl (fun n c => 10 * n + c.digitValue) 0

/-- The digits of a group of digits with single underscores between them. -/
def digits? : Text → Option Text
  | [] => none
  | [c] => if c.isDigit then some [c] else none
  | c :: d :: rest =>
    if !c.isDigit then none
    else if d.val = 0x5F then (digits? rest).map (c :: ·)
    else (digits? (d :: rest)).map (c :: ·)

/-- A sign in front, and what follows it: whether it is a minus, and the rest. -/
def sign : Text → Bool × Text
  | [] => (false, [])
  | c :: rest =>
    if c.val = 0x2D then (true, rest) else if c.val = 0x2B then (false, rest) else (false, c :: rest)

/-- What stands before the first `mark`, and what stands after it if there is one. -/
def splitAtMark (mark : Nat) (t : Text) : Text × Option Text :=
  match t.span (·.val != mark) with
  | (front, []) => (front, none)
  | (front, _ :: back) => (front, some back)

/-- An integer with its sign. -/
def signed (negative : Bool) (n : Nat) : Int := if negative then -(n : Int) else n

/-- Why a text is no acceptable integer. -/
inductive IntegerFault where
  | malformed
  | tooLong
deriving DecidableEq, Repr

/-- The greatest number of significant digits that an integer numeral may have. -/
def digitLimit : Nat := 4300

/-- Reads an integer leniently. -/
def integer? (t : Text) : Except IntegerFault Int :=
  let (negative, body) := sign (Text.trim CodePoint.isWhiteSpace t)
  let (whole, fraction) := splitAtMark 0x2E body
  let zeros : Bool := match fraction with
    | none => true
    | some f => !f.isEmpty && f.all (·.val == 0x30)
  match digits? whole with
  | some digits =>
    if !zeros then .error .malformed
    else if digitLimit < (digits.dropWhile (·.val == 0x30)).length then .error .tooLong
    else .ok (signed negative (value digits))
  | none => .error .malformed

/-- A possibly empty group of digits. -/
def digitsOrNone? (t : Text) : Option Text := if t.isEmpty then some [] else digits? t

/-- Beyond this decimal exponent every number is an infinity, and below its
opposite every number is zero. -/
def exponentBound : Int := 400

/-- The double nearest to `digits * 10 ^ exponent`. -/
def scaled (negative : Bool) (digits : Nat) (exponent : Int) : Double :=
  let length : Int := (Nat.toDigits 10 digits).length
  if digits = 0 then .finite negative 0
  else if exponentBound < exponent + length then .infinite negative
  else if exponent + length < -exponentBound then .finite negative 0
  else Double.ofRatio negative (digits * Nat.pow 10 exponent.toNat)
    (Nat.pow 10 (-exponent).toNat)

/-- Reads a decimal number as a double. -/
def double? (t : Text) : Option Double := do
  let (negative, body) := sign (Text.trim CodePoint.isBlank t)
  let word := body.map fun c => if 0x41 ≤ c.val ∧ c.val ≤ 0x5A then c.val + 0x20 else c.val
  if word = (Text.ofString "nan").map (·.val) then some .nan
  else if word = (Text.ofString "inf").map (·.val) ∨ word = (Text.ofString "infinity").map (·.val) then
    some (.infinite negative)
  else
    let lowered := body.map fun c => if c.val = 0x45 then CodePoint.ofChar 'e' else c
    let (mantissa, power) := splitAtMark 0x65 lowered
    let (whole, fraction) := splitAtMark 0x2E mantissa
    let wholeDigits ← digitsOrNone? whole
    let fractionDigits ← digitsOrNone? (fraction.getD [])
    let all := wholeDigits ++ fractionDigits
    if all.isEmpty then none
    else
      let exponent : Int ← match power with
        | none => some 0
        | some p => let (down, ds) := sign p; (digits? ds).map fun ds => signed down (value ds)
      some (scaled negative (value all) (exponent - fractionDigits.length))

end InitialLoad.Numeral
