import InitialLoad.Text.Blank
import InitialLoad.Text.Utf8
import InitialLoad.Value.Entries

/-!
# Environment files

A file of assignments, one to a line:

    NAME=value            # a comment
    export NAME='a value'
    NAME="first\nsecond"
    NAME

A value without quotes ends before a comment or at the end of its line and
loses the blanks around it.  A quoted value ends at the next quote of its kind
without a backslash in front and may hold line feeds; if there is none, it ends
at the last one that has a backslash.  A name alone has no value.

A statement that cannot be read is skipped up to the end of the line on which
the reading stopped, and the line where it began is reported.  In a value,
`$` and a name in braces stand for the value of that name; after the name there
may be a default, behind a colon and a hyphen.
-/

namespace InitialLoad.EnvironmentFile

/-- The code point of an ASCII sign. -/
abbrev sign (c : Char) : Nat := c.toNat

/-- One statement of the file. -/
inductive Statement where
  | empty
  | assignment (name : Text) (value : Option Text)
  | faulty
deriving DecidableEq, Repr

/-- What was read and the text after it, or the text at which reading stopped. -/
abbrev Step (α : Type) := Except Text (α × Text)

/-- The text after an `export` and the blanks that must follow it. -/
def dropExport (t : Text) : Text :=
  let word := Text.ofString "export"
  let rest := t.drop word.length
  if t.take word.length = word ∧ rest.head?.any (·.isInlineBlank) then
    rest.dropWhile (·.isInlineBlank)
  else t

/-- Reads the name of an assignment; a comment has none. -/
def readName (t : Text) : Step (Option Text) :=
  match t with
  | [] => .error t
  | c :: rest =>
    if c.val = sign '#' then .ok (none, t)
    else if c = Text.apostrophe then
      match rest.span (· ≠ Text.apostrophe) with
      | (name, _ :: after) => if name.isEmpty then .error t else .ok (some name, after)
      | (_, []) => .error t
    else
      match t.span fun c => c.val ≠ sign '=' ∧ c.val ≠ sign '#' ∧ !c.isBlank with
      | ([], _) => .error t
      | (name, after) => .ok (some name, after)

/-- Splits at the first quote without a backslash in front. -/
def splitAtQuote (quote : CodePoint) : Text → Option (Text × Text)
  | [] => none
  | [c] => if c = quote then some ([], []) else none
  | c :: d :: rest =>
    if c = quote then some ([], d :: rest)
    else if c = Text.backslash ∧ d = quote then
      (splitAtQuote quote rest).map fun parts => (c :: d :: parts.1, parts.2)
    else (splitAtQuote quote (d :: rest)).map fun parts => (c :: parts.1, parts.2)

/-- Splits at the last quote that has a backslash in front; the backslash stays. -/
def splitAtLastEscaped (quote : CodePoint) : Text → Option (Text × Text)
  | [] => none
  | [_] => none
  | c :: d :: rest =>
    match splitAtLastEscaped quote (d :: rest) with
    | some parts => some (c :: parts.1, parts.2)
    | none => if c = Text.backslash ∧ d = quote then some ([c], rest) else none

/-- What a letter after a backslash stands for between double quotes. -/
def letterEscapes : List (Nat × Nat) :=
  [(sign 'a', 7), (sign 'b', 8), (sign 'f', 12), (sign 'n', 10), (sign 'r', 13),
   (sign 't', 9), (sign 'v', 11)]

/-- What stands for a backslash and the code point after it, if they are an
escape inside the given quotes. -/
def escaped? (quote c : CodePoint) : Option CodePoint :=
  if c = Text.backslash ∨ c = Text.apostrophe then some c
  else if quote = Text.doubleQuote then
    if c = Text.doubleQuote then some c
    else (letterEscapes.lookup c.val).bind CodePoint.ofNat?
  else none

/-- Replaces the escapes inside quotes. -/
def unescape (quote : CodePoint) : Text → Text
  | [] => []
  | [c] => [c]
  | c :: d :: rest =>
    match if c = Text.backslash then escaped? quote d else none with
    | some e => e :: unescape quote rest
    | none => c :: unescape quote (d :: rest)

/-- Reads a value in quotes, from behind the opening one. -/
def readQuoted (quote : CodePoint) (t : Text) : Option (Text × Text) :=
  match splitAtQuote quote t with
  | some parts => some (unescape quote parts.1, parts.2)
  | none => (splitAtLastEscaped quote t).map fun parts => (unescape quote parts.1, parts.2)

/-- A number sign comes next, blanks aside. -/
def commentFollows (t : Text) : Bool :=
  (t.dropWhile (·.isBlank)).head?.any fun c => c.val = sign '#'

/-- The line up to the blanks before a comment. -/
def withoutComment : Text → Text
  | [] => []
  | c :: rest => if c.isBlank && commentFollows rest then [] else c :: withoutComment rest

/-- Reads a value. -/
def readValue (t : Text) : Step Text :=
  match t with
  | [] => .ok ([], [])
  | c :: rest =>
    if c = Text.apostrophe ∨ c = Text.doubleQuote then
      match readQuoted c rest with
      | some read => .ok read
      | none => .error t
    else
      let (line, after) := t.span (!·.isLineEnd)
      .ok (Text.trimEnd (·.isBlank) (withoutComment line), after)

/-- Reads what may stand after a name.  A number sign behind a blank begins a
comment, also when there is no value before it. -/
def readAssigned (t : Text) : Step (Option Text) :=
  match t with
  | c :: rest =>
    if c.val = sign '=' then
      let (blanks, body) := rest.span (·.isInlineBlank)
      if !blanks.isEmpty && body.head?.any (·.val = sign '#') then .ok (some [], body)
      else match readValue body with
        | .ok (value, after) => .ok (some value, after)
        | .error stuck => .error stuck
    else .ok (none, t)
  | [] => .ok (none, t)

/-- Reads the end of a statement: perhaps a comment, then the end of the line. -/
def readEnd (t : Text) : Step Unit :=
  let inner := t.dropWhile (·.isInlineBlank)
  let rest :=
    if inner.head?.any (fun c => c.val = sign '#') then inner.dropWhile (!·.isLineEnd) else inner
  match rest with
  | [] => .ok ((), [])
  | c :: after => if c.isLineEnd then .ok ((), after) else .error t

/-- Reads a statement that is not blank. -/
def readStatement (t : Text) : Step Statement :=
  match readName (dropExport t) with
  | .error stuck => .error stuck
  | .ok (name, afterName) =>
    match readAssigned (afterName.dropWhile (·.isInlineBlank)) with
    | .error stuck => .error stuck
    | .ok (value, afterValue) =>
      match readEnd afterValue with
      | .error stuck => .error stuck
      | .ok ((), after) =>
        .ok (match name with
          | some n => .assignment n value
          | none => .empty, after)

/-- The text after the end of the line. -/
def dropLine (t : Text) : Text := (t.dropWhile (!·.isLineEnd)).drop 1

/-- The statement at the start of a text, and what follows it. -/
def nextStatement (t : Text) : Statement × Text :=
  match t.dropWhile (·.isBlank) with
  | [] => (.empty, [])
  | start =>
    match readStatement start with
    | .ok read => read
    | .error stuck => (.faulty, dropLine stuck)

/-- The statements of a text, each with the number of the line where it begins,
`line` being that of the text.  A statement takes up at least one code point, so
`bound` need not exceed the length. -/
def statementsFrom (line : Nat) : Nat → Text → List (Nat × Statement)
  | 0, _ => []
  | bound + 1, t =>
    if t.isEmpty then []
    else
      let (statement, rest) := nextStatement t
      let consumed := t.take (t.length - rest.length)
      (line, statement) ::
        statementsFrom (line + consumed.countP fun c => c.val = 0x0A) bound rest

/-- The statements of a file with the lines where they begin. -/
def statements (t : Text) : List (Nat × Statement) := statementsFrom 1 t.length t

/-- The assignments among statements, in order. -/
def assignments (statements : List (Nat × Statement)) : Entries (Option Text) :=
  statements.filterMap fun
    | (_, .assignment name value) => some (name, value)
    | _ => none

/-- The lines where faulty statements begin. -/
def faultyLines (statements : List (Nat × Statement)) : List Nat :=
  statements.filterMap fun
    | (line, .faulty) => some line
    | _ => none

/-- A reference to a name, from behind the opening brace: the name, its
default, and the text after the closing brace. -/
def readReference (t : Text) : Option (Text × Option Text × Text) :=
  match t.span fun c => c.val ≠ 0x7D ∧ c.val ≠ sign ':' with
  | (_, []) => none
  | (name, c :: rest) =>
    if c.val = 0x7D then some (name, none, rest)
    else match rest with
      | d :: more =>
        if d.val = sign '-' then
          match more.span fun c => c.val ≠ 0x7D with
          | (value, _ :: after) => some (name, some value, after)
          | (_, []) => none
        else none
      | [] => none

/-- Replaces the references in a value; `bound` need not exceed its length. -/
def expandWithin (lookUp : Text → Option Text) : Nat → Text → Text
  | 0, t => t
  | _, [] => []
  | bound + 1, c :: rest =>
    match rest with
    | d :: more =>
      if c.val = sign '$' ∧ d.val = 0x7B then
        match readReference more with
        | some (name, standIn, after) =>
          (lookUp name).getD (standIn.getD []) ++ expandWithin lookUp bound after
        | none => c :: expandWithin lookUp bound rest
      else c :: expandWithin lookUp bound rest
    | [] => [c]

/-- Replaces the references in a value. -/
def expand (lookUp : Text → Option Text) (t : Text) : Text := expandWithin lookUp t.length t

/-- The value that a reference finds: that of an earlier line of the file, a
name without a value being empty, or else that of the environment. -/
def lookUp (environment : Entries Text) (file : Entries (Option Text)) (name : Text) :
    Option Text :=
  match file.get? name with
  | some value => some (value.getD [])
  | none => environment.get? name

/-- The values of the names in a file, assigned in order. -/
def evaluate (environment : Entries Text) (lines : Entries (Option Text)) : Entries (Option Text) :=
  lines.foldl (fun file line => file.put line.1 (line.2.map (expand (lookUp environment file)))) []

/-- The text with one kind of line end: a carriage return counts as a line
feed, alone or before one. -/
def unifyLineEnds : Text → Text
  | [] => []
  | [c] => if c.val = 0x0D then [CodePoint.ofChar '\n'] else [c]
  | c :: d :: rest =>
    if c.val ≠ 0x0D then c :: unifyLineEnds (d :: rest)
    else if d.val = 0x0A then CodePoint.ofChar '\n' :: unifyLineEnds rest
    else CodePoint.ofChar '\n' :: unifyLineEnds (d :: rest)

/-- The text without a byte order mark in front. -/
def dropMark : Text → Text
  | [] => []
  | c :: rest => if c.val = 0xFEFF then rest else c :: rest

/-- The text of a file. -/
def textOf (bytes : Bytes) : Except Utf8.Fault Text :=
  (Utf8.decode bytes).map fun t => unifyLineEnds (dropMark t)

end InitialLoad.EnvironmentFile
