import InitialLoad.Number.Shortest
import InitialLoad.Value.Basic

/-!
# How values appear in messages

`Value.literal` writes a value so that its type shows: text is quoted, a list
has brackets, an object braces, and a record the name of its kind with its
fields in parentheses.  `Value.wording` writes it for a reader: a text stands
for itself and a record is the row of its fields, but inside a list or an object
everything is a literal.
-/

namespace InitialLoad.Value

/-- The parts of a literal between an opening and a closing sign. -/
def enclosed (opening closing : Text) (parts : List Text) : Text :=
  Text.join [opening, Text.separated ", " parts, closing]

/-- A tuple of one item keeps a comma, to tell it from parentheses. -/
def tupleLiteral : List Text → Text
  | [part] => Text.join ["(", part, ",)"]
  | parts => enclosed "(" ")" parts

mutual

/-- A value in a form that shows its type. -/
def literal : Value → Text
  | .null => "None"
  | .bool b => if b then "True" else "False"
  | .int n => Text.ofInt n
  | .double d => d.toText
  | .text t => t.quoted
  | .bytes b => b.quoted
  | .list items => enclosed "[" "]" (literals items)
  | .tuple items => tupleLiteral (literals items)
  | .object entries => enclosed "\x7b" "\x7d" (entryLiterals entries)
  | .record kind fields => kind.name ++ enclosed "(" ")" (fieldLiterals fields)

/-- The literals of a sequence of values. -/
def literals : List Value → List Text
  | [] => []
  | v :: rest => literal v :: literals rest

/-- The entries of an object, a colon after each quoted name. -/
def entryLiterals : List (Text × Value) → List Text
  | [] => []
  | (name, v) :: rest => Text.join [name.quoted, ": ", literal v] :: entryLiterals rest

/-- The fields of a record, an equals sign after each name. -/
def fieldLiterals : List (Text × Value) → List Text
  | [] => []
  | (name, v) :: rest => Text.join [name, "=", literal v] :: fieldLiterals rest

end

/-- A value as a reader expects it. -/
def wording : Value → Text
  | .text t => t
  | .record _ fields => Text.separated " " (fieldLiterals fields)
  | v => literal v

end InitialLoad.Value
