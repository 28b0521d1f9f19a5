import InitialLoad.Layout
import InitialLoad.Logging
import InitialLoad.Proofs.QuotedText
import InitialLoad.Server.Storing

/-!
# The report of a duplicate names the duplicate

A duplicate is reported by its kind and its key: the name of a database user, or the
collection and the identifier of an element.  The message of the report has the kind
as it is and the key as a literal.  A kind has no blank, so it ends at the first blank of
the message; what stands between that and the end, which is always the same, is the
literal, and a literal tells its key: a text begins with a quote, an integer with a digit
or a minus sign, and no two of either sort are written alike.

A literal of these sorts is printable, whatever text it shows, and nothing that is
printable ends a line.  So the message of a report is one line of the log.
-/

namespace InitialLoad

/-! ## Lines -/

namespace CodePoint

/-- The code points after which a line may end: line feed, line tabulation, form feed,
carriage return, three of the information separators, next line, and the separators of
lines and of paragraphs. -/
def lineEnds : List Nat :=
  [0x0A, 0x0B, 0x0C, 0x0D, 0x1C, 0x1D, 0x1E, 0x85, 0x2028, 0x2029]

/-- No line ends after a printable code point. -/
theorem not_mem_lineEnds {c : CodePoint} (h : c.isPrintable = true) : c.val ∉ lineEnds := by
  intro hmem
  have hunprintable : ∀ n ∈ lineEnds, ∃ range ∈ unprintable, range.1 ≤ n ∧ n ≤ range.2 := by
    decide +kernel
  obtain ⟨range, hrange, hcovers⟩ := hunprintable c.val hmem
  have hany : unprintable.any (fun range => range.1 ≤ c.val && c.val ≤ range.2) = true := by
    apply List.any_eq_true.mpr
    exact ⟨range, hrange, by simpa using hcovers⟩
  rw [isPrintable, hany] at h
  cases h

end CodePoint

namespace Text

/-- A text without a line feed is one line. -/
theorem lines_of_no_feed {t : Text} (h : ∀ c ∈ t, c.val ≠ 0x0A) : t.lines = [t] := by
  induction t with
  | nil => rfl
  | cons c t ih =>
      have hfirst : c.val ≠ 0x0A := h c List.mem_cons_self
      have hrest := ih fun d hd => h d (List.mem_cons_of_mem c hd)
      simp [lines, hfirst, hrest]

theorem Printable.no_feed {t : Text} (h : t.Printable) : ∀ c ∈ t, c.val ≠ 0x0A := by
  intro c hc hfeed
  apply CodePoint.not_mem_lineEnds (h c hc)
  simp [hfeed, CodePoint.lineEnds]

theorem no_feed_join {parts : List Text} (h : ∀ part ∈ parts, ∀ c ∈ part, c.val ≠ 0x0A) :
    ∀ c ∈ join parts, c.val ≠ 0x0A := by
  intro c hc
  obtain ⟨part, hpart, hmem⟩ := List.mem_flatten.mp hc
  exact h part hpart c hmem

/-! ## Numerals -/

/-- No two natural numbers have the same numeral. -/
theorem ofNat_injective {m n : Nat} (h : ofNat m = ofNat n) : m = n := by
  have hdigits : Nat.toDigits 10 m = Nat.toDigits 10 n :=
    List.map_injective_iff.mpr (fun _ _ => CodePoint.ofChar_injective) h
  calc m = Nat.ofDigitChars 10 (Nat.toDigits 10 m) 0 :=
        (Nat.ofDigitChars_toDigits (by decide) (by decide)).symm
    _ = Nat.ofDigitChars 10 (Nat.toDigits 10 n) 0 := by rw [hdigits]
    _ = n := Nat.ofDigitChars_toDigits (by decide) (by decide)

/-- A numeral has nothing but digits. -/
theorem isDigit_of_mem_ofNat {n : Nat} {c : CodePoint} (h : c ∈ ofNat n) : c.isDigit = true := by
  obtain ⟨digit, hdigit, rfl⟩ := List.mem_map.mp h
  have hdecimal := Nat.isDigit_of_mem_toDigits (by decide) (by decide) hdigit
  simp only [Char.isDigit, ge_iff_le, Bool.and_eq_true, decide_eq_true_eq, UInt32.le_iff_toNat_le]
    at hdecimal
  have hlow : 0x30 ≤ digit.toNat := hdecimal.1
  have hhigh : digit.toNat ≤ 0x39 := hdecimal.2
  simp [CodePoint.isDigit, CodePoint.ofChar, hlow, hhigh]

/-- The numeral of an integer begins with a minus sign if the integer is negative, and
is digits otherwise. -/
theorem ofInt_injective {m n : Int} (h : ofInt m = ofInt n) : m = n := by
  have hsign : ∀ k : Nat, CodePoint.ofChar '-' ∉ ofNat k := by
    intro k hmem
    have hdigit := isDigit_of_mem_ofNat hmem
    exact absurd hdigit (by decide)
  cases m with
  | ofNat m =>
      cases n with
      | ofNat n => rw [ofNat_injective h]
      | negSucc n =>
          have hmem : CodePoint.ofChar '-' ∈ ofNat m := by
            rw [show ofNat m = _ from h]
            exact List.mem_cons_self
          exact absurd hmem (hsign m)
  | negSucc m =>
      cases n with
      | ofNat n =>
          have hmem : CodePoint.ofChar '-' ∈ ofNat n := by
            rw [show ofNat n = _ from h.symm]
            exact List.mem_cons_self
          exact absurd hmem (hsign n)
      | negSucc n =>
          have hnext : m + 1 = n + 1 := ofNat_injective (List.cons.inj h).2
          rw [Nat.succ.inj hnext]

/-- A numeral has digits and perhaps a minus sign, so it has no quote. -/
theorem mem_ofInt {n : Int} {c : CodePoint} (h : c ∈ ofInt n) :
    c.IsGraphic ∧ ¬ IsQuote c := by
  have hdigits : ∀ k : Nat, c ∈ ofNat k → c.IsGraphic ∧ ¬ IsQuote c := by
    intro k hmem
    have hdigit := isDigit_of_mem_ofNat hmem
    simp only [CodePoint.isDigit, Bool.and_eq_true, decide_eq_true_eq] at hdigit
    refine ⟨⟨by omega, by omega⟩, ?_⟩
    intro hquote
    rcases hquote with rfl | rfl
    · exact absurd hdigit (by decide)
    · exact absurd hdigit (by decide)
  cases n with
  | ofNat k => exact hdigits k h
  | negSucc k =>
      rcases List.mem_cons.mp h with rfl | h
      · exact ⟨⟨by decide, by decide⟩, by unfold IsQuote; decide⟩
      · exact hdigits (k + 1) h

/-- A quoted text is no numeral. -/
theorem quoted_ne_ofInt (t : Text) (n : Int) : t.quoted ≠ ofInt n := by
  intro h
  have hmem : quoteFor t ∈ ofInt n := by
    rw [← h]
    exact List.mem_cons_self
  exact (mem_ofInt hmem).2 (isQuote_quoteFor t)

end Text

/-- A message without a line feed is at most one line of a log. -/
theorem Logging.length_lines_le_one (log : Logging) {stamp : Text} {record : LogRecord}
    (hstamp : ∀ c ∈ stamp, c.val ≠ 0x0A) (hmessage : ∀ c ∈ record.message, c.val ≠ 0x0A) :
    (log.lines stamp record).length ≤ 1 := by
  have hname : ∀ c ∈ record.level.name, c.val ≠ 0x0A := by
    cases record.level <;> decide
  have hbar : ∀ c ∈ Text.ofString " | ", c.val ≠ 0x0A := by decide
  have hentry : ∀ entry, log.entry? stamp record = some entry → ∀ c ∈ entry, c.val ≠ 0x0A := by
    intro entry h
    unfold entry? at h
    split at h
    · cases h
      apply Text.no_feed_join
      simp only [List.forall_mem_cons]
      exact ⟨hstamp, hbar, hname, hbar, hmessage, List.forall_mem_nil _⟩
    · cases h
      apply Text.no_feed_join
      simp only [List.forall_mem_cons]
      exact ⟨hname, hbar, hmessage, List.forall_mem_nil _⟩
    · split at h
      · cases h
        exact hmessage
      · cases h
  unfold lines
  split
  · split
    · rename_i entry h
      rw [Text.lines_of_no_feed (hentry entry h)]
      exact Nat.le_refl 1
    · exact Nat.zero_le 1
  · exact Nat.zero_le 1

/-! ## Kinds and keys -/

/-- The kinds of duplicate that are reported: a database user, an app, a user. -/
def duplicateKinds : List Text := ["user", Layout.apps, Layout.users]

/-- The keys of what is loaded: a name, or an identifier that can be stored. -/
inductive EntityKey : Value → Prop
  | name (t : Text) : EntityKey (.text t)
  | identifier {n : Int} (h : Value.fitsEightBytes n = true) : EntityKey (.int n)

namespace EntityKey

/-- No two keys have the same literal. -/
theorem literal_injective {key other : Value} (hkey : EntityKey key) (hother : EntityKey other)
    (h : key.literal = other.literal) : key = other := by
  cases hkey with
  | name t =>
      cases hother with
      | name u => rw [Text.quoted_injective h]
      | identifier _ => exact absurd h (Text.quoted_ne_ofInt t _)
  | identifier _ =>
      cases hother with
      | name u => exact absurd h.symm (Text.quoted_ne_ofInt u _)
      | identifier _ => rw [Text.ofInt_injective h]

theorem printable_literal {key : Value} (h : EntityKey key) : key.literal.Printable := by
  cases h with
  | name t => exact Text.printable_quoted t
  | identifier _ => exact Text.printable_of_graphic fun c hc => (Text.mem_ofInt hc).1

end EntityKey

namespace Problem

/-- The end of every report of a duplicate. -/
def duplicateEnd : Text := " already exists"

theorem message_duplicateEntity (kind : Text) (key : Value) :
    message (.duplicateEntity (.text kind) key) =
      kind ++ CodePoint.ofChar ' ' :: (key.literal ++ duplicateEnd) := by
  simp [message, Value.wording, Text.join, duplicateEnd, Text.ofString]

/-- The kind is what stands before the first blank. -/
theorem takeWhile_message {kind : Text} (hkind : CodePoint.ofChar ' ' ∉ kind) (key : Value) :
    (message (.duplicateEntity (.text kind) key)).takeWhile (· ≠ CodePoint.ofChar ' ') = kind := by
  have hplain : ∀ c ∈ kind, decide (c ≠ CodePoint.ofChar ' ') = true := by
    intro c hc
    have hne : c ≠ CodePoint.ofChar ' ' := fun h => hkind (h ▸ hc)
    exact decide_eq_true hne
  rw [message_duplicateEntity, List.takeWhile_append_of_pos hplain, List.takeWhile_cons_of_neg]
  · exact List.append_nil kind
  · simp

theorem no_blank_of_kind : ∀ kind ∈ duplicateKinds, CodePoint.ofChar ' ' ∉ kind := by
  decide

theorem printable_message {kind : Text} {key : Value} (hkind : kind ∈ duplicateKinds)
    (hkey : EntityKey key) : (message (.duplicateEntity (.text kind) key)).Printable := by
  have hkinds : ∀ k ∈ duplicateKinds, ∀ c ∈ k, 0x20 ≤ c.val ∧ c.val < 0x7F := by decide
  have hend : ∀ c ∈ CodePoint.ofChar ' ' :: duplicateEnd, 0x20 ≤ c.val ∧ c.val < 0x7F := by
    decide
  have hblank : Text.Printable [CodePoint.ofChar ' '] :=
    Text.printable_of_graphic fun c hc => hend c (by simp_all)
  have hlast : Text.Printable duplicateEnd :=
    Text.printable_of_graphic fun c hc => hend c (List.mem_cons_of_mem _ hc)
  rw [message_duplicateEntity]
  exact (Text.printable_of_graphic (hkinds kind hkind)).append
    (hblank.append (hkey.printable_literal.append hlast))

end Problem

/-- **The report of a duplicate names the duplicate.**  Two reports have the same message
exactly when they have the same kind and the same key.  All of a message is printable and
no line ends in it, so a record of it is at most one line of any log. -/
theorem duplicate_reports_told_apart {kind other : Text} {key otherKey : Value}
    (hkind : kind ∈ duplicateKinds) (hother : other ∈ duplicateKinds)
    (hkey : EntityKey key) (hotherKey : EntityKey otherKey) :
    let report := Problem.duplicateEntity (.text kind) key
    (report.message = (Problem.duplicateEntity (.text other) otherKey).message ↔
      kind = other ∧ key = otherKey) ∧
    (∀ c ∈ report.message, c.isPrintable = true ∧ c.val ∉ CodePoint.lineEnds) ∧
    report.message.lines = [report.message] ∧
    ∀ (log : Logging) (stamp : Text) (level : Level) (logger : Text),
      (∀ c ∈ stamp, c.val ≠ 0x0A) →
      (log.lines stamp ⟨level, logger, report.message⟩).length ≤ 1 := by
  intro report
  have hprintable : report.message.Printable := Problem.printable_message hkind hkey
  refine ⟨⟨?_, ?_⟩, ?_, ?_, ?_⟩
  · intro h
    have hsame : kind = other := by
      rw [← Problem.takeWhile_message (Problem.no_blank_of_kind kind hkind) key, h,
        Problem.takeWhile_message (Problem.no_blank_of_kind other hother)]
    rw [Problem.message_duplicateEntity, Problem.message_duplicateEntity, hsame] at h
    have hliteral := (List.cons.inj (List.append_cancel_left h)).2
    exact ⟨hsame, hkey.literal_injective hotherKey (List.append_cancel_right hliteral)⟩
  · intro h
    obtain ⟨rfl, rfl⟩ := h
    rfl
  · intro c hc
    exact ⟨hprintable c hc, CodePoint.not_mem_lineEnds (hprintable c hc)⟩
  · exact Text.lines_of_no_feed hprintable.no_feed
  · intro log stamp level logger hstamp
    exact log.length_lines_le_one hstamp hprintable.no_feed

/-- A line feed and half of a surrogate pair are not taken for the signs by which they are
shown, and a name of one digit is not taken for an identifier. -/
theorem duplicate_reports_told_apart_lookalikes :
    let raw : Value := .text [⟨0x0A, by decide⟩, ⟨0xD800, by decide⟩]
    let spelled : Value := .text "\\n\\ud800"
    let message := fun kind key => (Problem.duplicateEntity (.text kind) key).message
    message "user" raw = "user '\\n\\ud800' already exists" ∧
      (message "user" raw).lines = [message "user" raw] ∧
      message "user" raw ≠ message "user" spelled ∧
      message Layout.users (.text "7") ≠ message Layout.users (.int 7) := by
  intro raw spelled message
  have huser : Text.ofString "user" ∈ duplicateKinds := by simp [duplicateKinds]
  have husers : Layout.users ∈ duplicateKinds := by simp [duplicateKinds]
  have hraw := duplicate_reports_told_apart huser huser
    (.name [⟨0x0A, by decide⟩, ⟨0xD800, by decide⟩]) (.name "\\n\\ud800")
  have hseven := duplicate_reports_told_apart husers husers (.name "7")
    (.identifier (n := 7) (by decide))
  refine ⟨by decide +kernel, hraw.2.2.1, ?_, ?_⟩
  · intro h
    have htexts := Value.text.inj (hraw.1.mp h).2
    exact absurd htexts (by decide)
  · intro h
    cases (hseven.1.mp h).2

end InitialLoad
