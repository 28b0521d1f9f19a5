import InitialLoad.Text.Basic

/-!
# Blanks

Two sets of blank code points are in use.  `isWhiteSpace` is the Unicode
property `White_Space`; it surrounds a numeral that is read leniently.
`isBlank` has the four information separators besides; it separates the parts
of a line in an environment file.
-/

namespace InitialLoad.CodePoint

/-- The Unicode property `White_Space`. -/
def isWhiteSpace (c : CodePoint) : Bool :=
  (0x09 ≤ c.val && c.val ≤ 0x0D) || c.val == 0x20 || c.val == 0x85 || c.val == 0xA0 ||
  c.val == 0x1680 || (0x2000 ≤ c.val && c.val ≤ 0x200A) || c.val == 0x2028 ||
  c.val == 0x2029 || c.val == 0x202F || c.val == 0x205F || c.val == 0x3000

/-- White space or one of the information separators U+001C to U+001F. -/
def isBlank (c : CodePoint) : Bool :=
  c.isWhiteSpace || (0x1C ≤ c.val && c.val ≤ 0x1F)

/-- Ends a line: carriage return or line feed. -/
def isLineEnd (c : CodePoint) : Bool := c.val == 0x0A || c.val == 0x0D

/-- A blank inside a line. -/
def isInlineBlank (c : CodePoint) : Bool := c.isBlank && !c.isLineEnd

theorem isBlank_of_isWhiteSpace {c : CodePoint} (h : c.isWhiteSpace) : c.isBlank := by
  simp [isBlank, h]

end InitialLoad.CodePoint

namespace InitialLoad.Text

/-- The text without what `drop` accepts at its end. -/
def trimEnd (drop : CodePoint → Bool) (t : Text) : Text :=
  (t.reverse.dropWhile drop).reverse

/-- The text without what `drop` accepts at either end. -/
def trim (drop : CodePoint → Bool) (t : Text) : Text :=
  trimEnd drop (t.dropWhile drop)

end InitialLoad.Text
