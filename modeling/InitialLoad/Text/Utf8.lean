import InitialLoad.Text.Quoted

/-!
# UTF-8

Decoding reads one byte at a time.  Between two characters any first byte of a
well-formed sequence may come; inside a sequence `Pending` holds what has been
read and the range in which the next byte must lie, so that overlong forms,
surrogates and numbers beyond the code space are refused at the first byte that
shows them.

A fault reports where the sequence began, how many bytes of it were sound, and
what was wrong.
-/

namespace InitialLoad.Utf8

/-- What is wrong with a sequence of bytes. -/
inductive Reason where
  | startByte
  | continuation
  | ending
deriving DecidableEq, Repr

/-- The first sequence that is not well formed. -/
structure Fault where
  position : Nat
  length : Nat
  firstByte : UInt8
  reason : Reason
deriving DecidableEq, Repr

/-- A sequence that has begun and is not complete. -/
structure Pending where
  start : Nat
  firstByte : UInt8
  taken : Nat
  missing : Nat
  value : Nat
  low : Nat
  high : Nat

/-- The fault of a sequence that does not go on as it must. -/
def Pending.fault (p : Pending) (reason : Reason) : Fault :=
  ⟨p.start, p.taken, p.firstByte, reason⟩

/-- What a first byte beyond ASCII announces: the number of bytes to follow,
its share of the code point, and the range of the second byte. -/
def announce (position : Nat) (b : UInt8) : Option Pending :=
  let n := b.toNat
  if 0xC2 ≤ n ∧ n ≤ 0xDF then some ⟨position, b, 1, 1, n - 0xC0, 0x80, 0xBF⟩
  else if n = 0xE0 then some ⟨position, b, 1, 2, 0, 0xA0, 0xBF⟩
  else if n = 0xED then some ⟨position, b, 1, 2, 0xD, 0x80, 0x9F⟩
  else if 0xE1 ≤ n ∧ n ≤ 0xEF then some ⟨position, b, 1, 2, n - 0xE0, 0x80, 0xBF⟩
  else if n = 0xF0 then some ⟨position, b, 1, 3, 0, 0x90, 0xBF⟩
  else if n = 0xF4 then some ⟨position, b, 1, 3, 4, 0x80, 0x8F⟩
  else if 0xF1 ≤ n ∧ n ≤ 0xF3 then some ⟨position, b, 1, 3, n - 0xF0, 0x80, 0xBF⟩
  else none

/-- Decodes the bytes from `position` on, inside the sequence that is pending. -/
def decodeFrom (position : Nat) : Option Pending → Bytes → Except Fault Text
  | none, [] => .ok []
  | some p, [] => .error (p.fault .ending)
  | none, b :: rest =>
    if b.toNat < 0x80 then
      (decodeFrom (position + 1) none rest).map (Bytes.toCodePoint b :: ·)
    else match announce position b with
      | some p => decodeFrom (position + 1) (some p) rest
      | none => .error ⟨position, 1, b, .startByte⟩
  | some p, b :: rest =>
    if p.low ≤ b.toNat ∧ b.toNat ≤ p.high then
      let value := p.value * 64 + (b.toNat - 0x80)
      if p.missing ≤ 1 then
        (decodeFrom (position + 1) none rest).map ((CodePoint.ofNat? value).toList ++ ·)
      else
        decodeFrom (position + 1)
          (some { p with taken := p.taken + 1, missing := p.missing - 1, value,
                         low := 0x80, high := 0xBF }) rest
    else .error (p.fault .continuation)

/-- The text that the bytes encode, or the first fault in them. -/
def decode (bytes : Bytes) : Except Fault Text := decodeFrom 0 none bytes

/-- The bytes of one code point. -/
def encodePoint (c : CodePoint) : Bytes :=
  let n := c.val
  let trail (shift : Nat) : UInt8 := UInt8.ofNat (0x80 + n / shift % 64)
  if n < 0x80 then [UInt8.ofNat n]
  else if n < 0x800 then [UInt8.ofNat (0xC0 + n / 64), trail 1]
  else if n < 0x10000 then [UInt8.ofNat (0xE0 + n / 4096), trail 64, trail 1]
  else [UInt8.ofNat (0xF0 + n / 262144), trail 4096, trail 64, trail 1]

/-- The bytes of a text. -/
def encode (t : Text) : Bytes := t.flatMap encodePoint

/-- The wording of a reason. -/
def Reason.message : Reason → Text
  | .startByte => "invalid start byte"
  | .continuation => "invalid continuation byte"
  | .ending => "unexpected end of data"

/-- The report on bytes that are not UTF-8; a single byte is named by its number. -/
def Fault.message (f : Fault) : Text :=
  let place : Text :=
    if f.length = 1 then
      Text.join ["byte 0x", Text.hex 2 f.firstByte.toNat, " in position ", Text.ofNat f.position]
    else
      Text.join ["bytes in position ", Text.ofNat f.position, "-",
        Text.ofNat (f.position + f.length - 1)]
  Text.join ["'utf-8' codec can't decode ", place, ": ", f.reason.message]

end InitialLoad.Utf8
