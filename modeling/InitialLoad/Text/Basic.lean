/-!
# Text as a list of code points

Names, identifiers and messages are sequences of Unicode code points.  A
`CodePoint` may also lie in the surrogate range, because a text that reaches
the loader need not be well formed; `Text.wellFormed` says when it is.

Numerals are written here too: `Text.ofNat` and `Text.ofInt` are the decimal
numerals that appear in every message and index name.
-/

namespace InitialLoad

/-- A number below the end of the Unicode code space, surrogates included. -/
structure CodePoint where
  val : Nat
  lt : val < 0x110000
deriving DecidableEq, Repr

/-- A sequence of code points. -/
abbrev Text := List CodePoint

namespace CodePoint

/-- The code point of a Unicode scalar value. -/
def ofChar (c : Char) : CodePoint :=
  ⟨c.toNat, by
    rcases c.valid with h | ⟨_, h⟩
    · exact Nat.lt_trans h (by decide)
    · exact h⟩

/-- The code point of a number, when the number is one. -/
def ofNat? (n : Nat) : Option CodePoint :=
  if h : n < 0x110000 then some ⟨n, h⟩ else none

/-- Half of a surrogate pair: no character on its own. -/
def isSurrogate (c : CodePoint) : Bool := 0xD800 ≤ c.val && c.val < 0xE000

/-- An ASCII decimal digit. -/
def isDigit (c : CodePoint) : Bool := 0x30 ≤ c.val && c.val ≤ 0x39

/-- The value of an ASCII decimal digit. -/
def digitValue (c : CodePoint) : Nat := c.val - 0x30

@[ext] theorem ext {a b : CodePoint} (h : a.val = b.val) : a = b := by
  cases a; cases b; cases h; rfl

theorem ofChar_injective {a b : Char} (h : ofChar a = ofChar b) : a = b := by
  have hv : a.toNat = b.toNat := congrArg CodePoint.val h
  exact Char.ext (UInt32.toNat_inj.1 hv)

end CodePoint

namespace Text

/-- The code points of a string. -/
def ofString (s : String) : Text := s.toList.map CodePoint.ofChar

instance : Coe String Text := ⟨ofString⟩

/-- The parts of a message, one after the other. -/
def join (parts : List Text) : Text := parts.flatten

/-- The parts with `separator` between each two of them. -/
def separated (separator : Text) (parts : List Text) : Text :=
  separator.intercalate parts

/-- No surrogate stands alone: the text can be written as UTF-8. -/
def wellFormed (t : Text) : Bool := t.all (!·.isSurrogate)

/-- The decimal numeral of a natural number. -/
def ofNat (n : Nat) : Text := (Nat.toDigits 10 n).map CodePoint.ofChar

/-- The decimal numeral of an integer, a minus sign before a negative one. -/
def ofInt : Int → Text
  | .ofNat n => ofNat n
  | .negSucc n => (CodePoint.ofChar '-') :: ofNat (n + 1)

/-- Code point order: the first difference decides, a proper beginning comes first. -/
def before : Text → Text → Bool
  | _, [] => false
  | [], _ :: _ => true
  | a :: s, b :: t => a.val < b.val || (a.val == b.val && before s t)

/-- The lines of a text: what stands between its line feeds, so one more than there are line feeds. -/
def lines : Text → List Text
  | [] => [[]]
  | c :: t =>
    if c.val = 0x0A then [] :: lines t
    else match lines t with
      | [] => [[c]]
      | l :: ls => (c :: l) :: ls

theorem ofString_append (s t : String) : ofString (s ++ t) = ofString s ++ ofString t := by
  simp [ofString]

theorem lines_ne_nil (t : Text) : lines t ≠ [] := by
  cases t with
  | nil => simp [lines]
  | cons c t =>
    simp only [lines]
    split
    · simp
    · split <;> simp

end Text

end InitialLoad
