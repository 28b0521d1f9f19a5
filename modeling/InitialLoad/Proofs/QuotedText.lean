import InitialLoad.Text.Quoted
import Mathlib.Algebra.Group.Nat.Defs
import Mathlib.Data.List.Basic

/-!
# A quoted text stands for one text

Inside quotes a code point is written in one of four ways: as itself, by a sign after
a backslash, or by its number in a width that the sign tells.  Whatever follows, the
front of such a text can be read again: `unescape` gives the code point and leaves the
rest, by `unescape_escape`.

So no two texts are quoted alike (`quoted_injective`), although the quote depends on
the whole content: the first code point of a quoted text is its quote, and inside the
same quotes the code points are read one by one.  And every code point of a quoted text
is printable (`printable_quoted`), because one that is not is written by its number.
-/

namespace InitialLoad

namespace CodePoint

/-- A space or a visible sign of ASCII. -/
def IsGraphic (c : CodePoint) : Prop := 0x20 ≤ c.val ∧ c.val < 0x7F

/-- No range of unprintable code points reaches into the graphic ones. -/
theorem unprintable_bounds : ∀ range ∈ unprintable, range.2 < 0x20 ∨ 0x7F ≤ range.1 := by
  decide +kernel

theorem IsGraphic.isPrintable {c : CodePoint} (h : c.IsGraphic) : c.isPrintable = true := by
  have hnone : ∀ range ∈ unprintable, ¬ (range.1 ≤ c.val ∧ c.val ≤ range.2) := by
    intro range hrange hcovers
    have hbounds := unprintable_bounds range hrange
    have hlow := h.1
    have hhigh := h.2
    omega
  simp only [CodePoint.isPrintable, Bool.not_eq_true', List.any_eq_false, Bool.and_eq_true,
    decide_eq_true_eq]
  exact hnone

end CodePoint

namespace Text

/-- Every code point of the text is printable. -/
def Printable (t : Text) : Prop := ∀ c ∈ t, c.isPrintable = true

theorem Printable.append {s t : Text} (hs : Printable s) (ht : Printable t) :
    Printable (s ++ t) := by
  intro c hc
  rcases List.mem_append.mp hc with hc | hc
  · exact hs c hc
  · exact ht c hc

theorem printable_of_graphic {t : Text} (h : ∀ c ∈ t, c.IsGraphic) : Printable t :=
  fun c hc => (h c hc).isPrintable

/-! ## Numbers in hexadecimal digits -/

/-- The number that a lower-case hexadecimal digit stands for. -/
def hexValue (c : CodePoint) : Nat := if c.val < 0x61 then c.val - 0x30 else c.val - 0x57

/-- The number that a row of hexadecimal digits stands for. -/
def readHex (digits : Text) : Nat := digits.foldl (fun n c => 16 * n + hexValue c) 0

theorem hexValue_hexDigit (n : Nat) : hexValue (hexDigit n) = n % 16 := by
  have hdigits : ∀ m < 16, hexValue (CodePoint.ofChar (Nat.digitChar m)) = m := by decide
  exact hdigits (n % 16) (Nat.mod_lt n (by decide))

theorem isGraphic_hexDigit (n : Nat) : (hexDigit n).IsGraphic := by
  have hdigits : ∀ m < 16, 0x20 ≤ (CodePoint.ofChar (Nat.digitChar m)).val ∧
      (CodePoint.ofChar (Nat.digitChar m)).val < 0x7F := by decide
  exact hdigits (n % 16) (Nat.mod_lt n (by decide))

theorem length_hex (width n : Nat) : (hex width n).length = width := by
  induction width generalizing n with
  | zero => rfl
  | succ width ih => simp [hex, ih]

theorem isGraphic_of_mem_hex {width n : Nat} {c : CodePoint} (h : c ∈ hex width n) :
    c.IsGraphic := by
  induction width generalizing n with
  | zero => cases h
  | succ width ih =>
      rcases List.mem_append.mp h with h | h
      · exact ih h
      · rw [List.mem_singleton.mp h]
        exact isGraphic_hexDigit n

/-- The digits stand for what is left of the number in their width. -/
theorem readHex_hex (width n : Nat) : readHex (hex width n) = n % 16 ^ width := by
  induction width generalizing n with
  | zero => simp [readHex, hex, Nat.mod_one]
  | succ width ih =>
      have hlast : readHex (hex (width + 1) n) = 16 * readHex (hex width (n / 16)) + n % 16 := by
        simp [readHex, hex, hexValue_hexDigit]
      calc readHex (hex (width + 1) n)
          = 16 * (n / 16 % 16 ^ width) + n % 16 := by rw [hlast, ih]
        _ = n % (16 * 16 ^ width) := by rw [Nat.mod_mul, Nat.add_comm]
        _ = n % 16 ^ (width + 1) := by rw [Nat.pow_succ']

/-! ## The four ways to write a code point -/

/-- A code point that is used as a quote. -/
def IsQuote (quote : CodePoint) : Prop := quote = apostrophe ∨ quote = doubleQuote

theorem isQuote_quoteFor (content : Text) : IsQuote (quoteFor content) := by
  unfold quoteFor IsQuote
  split
  · exact Or.inr rfl
  · exact Or.inl rfl

/-- The blanks that have a letter, and the letters. -/
def blankSigns : List (Nat × Char) := [(0x0A, 'n'), (0x0D, 'r'), (0x09, 't')]

/-- A code point is written in this form inside the quotes. -/
inductive Written (quote c : CodePoint) : Text → Prop
  | mark (h : c = quote ∨ c = backslash) : Written quote c [backslash, c]
  | blank (letter : Char) (h : (c.val, letter) ∈ blankSigns) :
      Written quote c [backslash, CodePoint.ofChar letter]
  | plain (hmark : c ≠ backslash) (h : c.isPrintable = true) : Written quote c [c]
  | number : Written quote c (numberEscape c.val)

theorem written_escape (quote c : CodePoint) : Written quote c (escape quote c) := by
  unfold escape signEscape
  by_cases hmark : c = quote ∨ c = backslash
  · rw [if_pos hmark]
    exact .mark hmark
  · rw [if_neg hmark]
    by_cases hfeed : c.val = 0x0A
    · rw [if_pos hfeed]
      exact .blank 'n' (by simp [hfeed, blankSigns])
    · rw [if_neg hfeed]
      by_cases hreturn : c.val = 0x0D
      · rw [if_pos hreturn]
        exact .blank 'r' (by simp [hreturn, blankSigns])
      · rw [if_neg hreturn]
        by_cases htab : c.val = 0x09
        · rw [if_pos htab]
          exact .blank 't' (by simp [htab, blankSigns])
        · rw [if_neg htab]
          by_cases hprintable : c.isPrintable = true
          · rw [if_pos hprintable]
            exact .plain (fun h => hmark (Or.inr h)) hprintable
          · rw [if_neg hprintable]
            exact .number

/-! ## Reading what was escaped -/

/-- Reads a code point by its number in `width` digits. -/
def unescapeNumber (width : Nat) (t : Text) : Option (CodePoint × Text) :=
  (CodePoint.ofNat? (readHex (t.take width))).map fun c => (c, t.drop width)

/-- Reads a code point from what follows a backslash. -/
def unescapeSign : Text → Option (CodePoint × Text)
  | [] => none
  | sign :: rest =>
    if sign = CodePoint.ofChar 'x' then unescapeNumber 2 rest
    else if sign = CodePoint.ofChar 'u' then unescapeNumber 4 rest
    else if sign = CodePoint.ofChar 'U' then unescapeNumber 8 rest
    else if sign = CodePoint.ofChar 'n' then some (⟨0x0A, by decide⟩, rest)
    else if sign = CodePoint.ofChar 'r' then some (⟨0x0D, by decide⟩, rest)
    else if sign = CodePoint.ofChar 't' then some (⟨0x09, by decide⟩, rest)
    else some (sign, rest)

/-- Reads the code point for which the front of a text stands inside quotes. -/
def unescape : Text → Option (CodePoint × Text)
  | [] => none
  | c :: rest => if c = backslash then unescapeSign rest else some (c, rest)

/-- A number is read again in every width that holds it. -/
theorem unescapeNumber_hex (width : Nat) {c : CodePoint} (h : c.val < 16 ^ width) (rest : Text) :
    unescapeNumber width (hex width c.val ++ rest) = some (c, rest) := by
  have htake : (hex width c.val ++ rest).take width = hex width c.val :=
    List.take_left' (length_hex width c.val)
  have hdrop : (hex width c.val ++ rest).drop width = rest :=
    List.drop_left' (length_hex width c.val)
  have hpoint : CodePoint.ofNat? c.val = some c := by
    simp [CodePoint.ofNat?, c.lt]
  rw [unescapeNumber, htake, hdrop, readHex_hex, Nat.mod_eq_of_lt h, hpoint]
  rfl

/-- The letter after the backslash tells how many digits follow. -/
theorem unescape_letter (digits : Text) :
    unescape (ofString "\\x" ++ digits) = unescapeNumber 2 digits ∧
      unescape (ofString "\\u" ++ digits) = unescapeNumber 4 digits ∧
      unescape (ofString "\\U" ++ digits) = unescapeNumber 8 digits :=
  ⟨rfl, rfl, rfl⟩

theorem unescape_numberEscape (c : CodePoint) (rest : Text) :
    unescape (numberEscape c.val ++ rest) = some (c, rest) := by
  have hlt := c.lt
  unfold numberEscape
  by_cases hbyte : c.val < 0x100
  · rw [if_pos hbyte, List.append_assoc, (unescape_letter _).1]
    exact unescapeNumber_hex 2 (by omega) rest
  · rw [if_neg hbyte]
    by_cases hplane : c.val < 0x10000
    · rw [if_pos hplane, List.append_assoc, (unescape_letter _).2.1]
      exact unescapeNumber_hex 4 (by omega) rest
    · rw [if_neg hplane, List.append_assoc, (unescape_letter _).2.2]
      exact unescapeNumber_hex 8 (by omega) rest

/-- **What was escaped can be read again**, whatever follows. -/
theorem unescape_escape {quote : CodePoint} (hquote : IsQuote quote) (c : CodePoint) (rest : Text) :
    unescape (escape quote c ++ rest) = some (c, rest) := by
  have hwritten := written_escape quote c
  generalize escape quote c = written at hwritten ⊢
  cases hwritten with
  | mark h =>
      have hmarks : c = apostrophe ∨ c = doubleQuote ∨ c = backslash := by
        rcases h with rfl | rfl
        · exact hquote.imp_right Or.inl
        · exact Or.inr (Or.inr rfl)
      -- No quote and no backslash is a letter that stands for something else.
      rcases hmarks with rfl | rfl | rfl <;> rfl
  | blank letter h =>
      simp only [blankSigns, List.mem_cons, Prod.mk.injEq, List.not_mem_nil, or_false] at h
      rcases h with ⟨hval, rfl⟩ | ⟨hval, rfl⟩ | ⟨hval, rfl⟩
      · rw [CodePoint.ext (b := ⟨0x0A, by decide⟩) hval]
        rfl
      · rw [CodePoint.ext (b := ⟨0x0D, by decide⟩) hval]
        rfl
      · rw [CodePoint.ext (b := ⟨0x09, by decide⟩) hval]
        rfl
  | plain hmark h => simp [unescape, hmark]
  | number => exact unescape_numberEscape c rest

/-- Inside the same quotes no two contents are written alike. -/
theorem escapes_injective {quote : CodePoint} (hquote : IsQuote quote) {s t : Text}
    (h : s.flatMap (escape quote) = t.flatMap (escape quote)) : s = t := by
  induction s generalizing t with
  | nil =>
      cases t with
      | nil => rfl
      | cons d t =>
          have hread := unescape_escape hquote d (t.flatMap (escape quote))
          rw [← List.flatMap_cons, ← h] at hread
          cases hread
  | cons c s ih =>
      have hread := unescape_escape hquote c (s.flatMap (escape quote))
      rw [← List.flatMap_cons, h] at hread
      cases t with
      | nil => cases hread
      | cons d t =>
          rw [List.flatMap_cons, unescape_escape hquote d, Option.some.injEq,
            Prod.mk.injEq] at hread
          obtain ⟨rfl, hrest⟩ := hread
          rw [ih hrest.symm]

/-- **No two texts are quoted alike.** -/
theorem quoted_injective {s t : Text} (h : s.quoted = t.quoted) : s = t := by
  unfold quoted at h
  obtain ⟨hquote, hcontent⟩ := List.cons.inj h
  rw [hquote] at hcontent
  exact escapes_injective (isQuote_quoteFor t) (List.append_cancel_right hcontent)

/-! ## Printable code points only -/

theorem isGraphic_of_isQuote {quote : CodePoint} (h : IsQuote quote) : quote.IsGraphic := by
  rcases h with rfl | rfl <;> exact ⟨by decide, by decide⟩

theorem printable_numberEscape (n : Nat) : Printable (numberEscape n) := by
  have hsigns : ∀ sign : Text, sign ∈ [ofString "\\x", ofString "\\u", ofString "\\U"] →
      ∀ width, Printable (sign ++ hex width n) := by
    intro sign hsign width
    have hgraphic : ∀ t ∈ [ofString "\\x", ofString "\\u", ofString "\\U"], ∀ c ∈ t,
        0x20 ≤ c.val ∧ c.val < 0x7F := by decide
    exact (printable_of_graphic (hgraphic sign hsign)).append
      (printable_of_graphic fun c hc => isGraphic_of_mem_hex hc)
  unfold numberEscape
  split
  · exact hsigns _ (by simp) 2
  · split
    · exact hsigns _ (by simp) 4
    · exact hsigns _ (by simp) 8

theorem printable_escape {quote : CodePoint} (hquote : IsQuote quote) (c : CodePoint) :
    Printable (escape quote c) := by
  have hbackslash : backslash.IsGraphic := ⟨by decide, by decide⟩
  have hwritten := written_escape quote c
  generalize escape quote c = written at hwritten ⊢
  cases hwritten with
  | mark h =>
      have hgraphic : c.IsGraphic := by
        rcases h with rfl | rfl
        · exact isGraphic_of_isQuote hquote
        · exact hbackslash
      apply printable_of_graphic
      simp [hbackslash, hgraphic]
  | blank letter h =>
      have hletters : ∀ sign ∈ blankSigns, 0x20 ≤ (CodePoint.ofChar sign.2).val ∧
          (CodePoint.ofChar sign.2).val < 0x7F := by decide
      have hgraphic : (CodePoint.ofChar letter).IsGraphic := hletters _ h
      apply printable_of_graphic
      simp [hbackslash, hgraphic]
  | plain hmark h => simp [Printable, h]
  | number => exact printable_numberEscape c.val

/-- **A quoted text is printable**, whatever the text is. -/
theorem printable_quoted (t : Text) : Printable t.quoted := by
  have hquote := isQuote_quoteFor t
  have hmark := (isGraphic_of_isQuote hquote).isPrintable
  have hcontent : Printable (t.flatMap (escape (quoteFor t))) := by
    intro x hx
    obtain ⟨c, -, hc⟩ := List.mem_flatMap.mp hx
    exact printable_escape hquote c x hc
  intro x hx
  unfold quoted at hx
  rcases List.mem_cons.mp hx with rfl | hx
  · exact hmark
  · rcases List.mem_append.mp hx with hx | hx
    · exact hcontent x hx
    · rw [List.mem_singleton.mp hx]
      exact hmark

end Text

end InitialLoad
