import InitialLoad.Text.Printable

/-!
# Quoted text

How a text or a byte string is shown inside a message.  The quote is an
apostrophe, or a double quote when the content has an apostrophe and no double
quote.  The quote in use and the backslash are escaped by a backslash, line
feed, carriage return and tab by a letter, and every other code point that is
not printable by its number in lower-case hexadecimal digits: two after `\x`,
four after `\u`, eight after `\U`.

So a quoted text is one line of printable code points.
-/

namespace InitialLoad

namespace Text

/-- The digit of a number below sixteen, in lower case. -/
def hexDigit (n : Nat) : CodePoint := CodePoint.ofChar (Nat.digitChar (n % 16))

/-- The last `width` hexadecimal digits of a number. -/
def hex : Nat → Nat → Text
  | 0, _ => []
  | width + 1, n => hex width (n / 16) ++ [hexDigit n]

/-- The quotes and the escape sign. -/
def apostrophe : CodePoint := CodePoint.ofChar (Char.ofNat 0x27)
def doubleQuote : CodePoint := CodePoint.ofChar (Char.ofNat 0x22)
def backslash : CodePoint := CodePoint.ofChar (Char.ofNat 0x5C)

/-- The quote around a content: the apostrophe, unless that would need an
escape which the double quote spares. -/
def quoteFor (content : Text) : CodePoint :=
  if content.contains apostrophe && !content.contains doubleQuote then doubleQuote
  else apostrophe

/-- A code point by its number, in the shortest of the three widths that holds it. -/
def numberEscape (n : Nat) : Text :=
  if n < 0x100 then ofString "\\x" ++ hex 2 n
  else if n < 0x10000 then ofString "\\u" ++ hex 4 n
  else ofString "\\U" ++ hex 8 n

/-- The signs that are escaped in the same way inside every quote. -/
def signEscape (quote c : CodePoint) : Option Text :=
  if c = quote ∨ c = backslash then some [backslash, c]
  else if c.val = 0x0A then some (ofString "\\n")
  else if c.val = 0x0D then some (ofString "\\r")
  else if c.val = 0x09 then some (ofString "\\t")
  else none

/-- One code point of a text, inside the given quote. -/
def escape (quote c : CodePoint) : Text :=
  match signEscape quote c with
  | some written => written
  | none => if c.isPrintable then [c] else numberEscape c.val

/-- The text in quotes. -/
def quoted (t : Text) : Text :=
  quoteFor t :: t.flatMap (escape (quoteFor t)) ++ [quoteFor t]

end Text

/-- A string of bytes. -/
abbrev Bytes := List UInt8

namespace Bytes

/-- The code point with the number of a byte. -/
def toCodePoint (b : UInt8) : CodePoint :=
  ⟨b.toNat, Nat.lt_trans b.toNat_lt (by decide)⟩

/-- One byte inside the given quote: an ASCII graphic or the space stands for
itself, any other byte is written by its number. -/
def escape (quote : CodePoint) (b : UInt8) : Text :=
  match Text.signEscape quote (toCodePoint b) with
  | some written => written
  | none =>
    if 0x20 ≤ b.toNat ∧ b.toNat < 0x7F then [toCodePoint b] else Text.numberEscape b.toNat

/-- The bytes in quotes, marked by a `b` in front. -/
def quoted (bytes : Bytes) : Text :=
  let quote := Text.quoteFor (bytes.map toCodePoint)
  CodePoint.ofChar 'b' :: quote :: bytes.flatMap (escape quote) ++ [quote]

end Bytes

end InitialLoad
