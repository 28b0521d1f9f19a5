import InitialLoad.Seeder.Program
import Std.Time

/-!
# The command line

One run of the whole process, in the environment and the directory in which it
was started, against a fresh store in memory.  It writes the log to the standard
error stream and ends with the exit status of the seed.
-/

namespace InitialLoad

/-- The text as a string; a surrogate is shown by the replacement character. -/
def Text.toDisplay (t : Text) : String :=
  String.ofList (t.map fun c => if c.isSurrogate then Char.ofNat 0xFFFD else Char.ofNat c.val)

namespace CommandLine

/-- The present time as it stands in a line of the log. -/
def stampNow : IO Text := do
  let now ← Std.Time.PlainDateTime.now
  return Text.ofString (now.format "yyyy-MM-dd HH:mm:ss")

/-- Microseconds since some moment before the start. -/
def microsNow : IO Int := do
  return ((← IO.monoNanosNow) / 1000 : Nat)

/-- Runs a procedure against a server, writing the log and reading the clock. -/
def perform {σ α : Type} (server : Server σ) : Procedure α → Logging → σ → IO α
  | .done a, _, _ => return a
  | .call q next, log, s =>
    perform server (next (server.answer q s).1) log (server.answer q s).2
  | .record r next, log, s => do
    let stamp ← stampNow
    for line in log.lines stamp r do
      IO.eprintln line.toDisplay
    perform server next log s
  | .configure log next, _, s => perform server next log s
  | .clock next, log, s => do
    perform server (next (← microsNow)) log s

/-- A variable from its written form, name and value around an equals sign. -/
def entryOf? (bytes : Bytes) : Option (Text × Text) :=
  match Utf8.decode bytes with
  | .ok t =>
    match t.span (·.val != 0x3D) with
    | (name, _ :: value) => some (name, value)
    | (_, []) => none
  | .error _ => none

/-- The variables in a block in which each ends with a zero byte. -/
def environmentOf (block : Bytes) : Environment :=
  (block.splitOn 0).filterMap entryOf?

/-- The bytes of a file, if it can be read. -/
def bytesOf? (path : String) : IO (Option Bytes) := do
  try
    return some (← IO.FS.readBinFile path).toList
  catch _ => return none

/-- Runs the process and gives its exit status; a failure that leaves it is
written out and ends it with status one. -/
def start : IO UInt32 := do
  let block ← bytesOf? "/proc/self/environ"
  let file ← bytesOf? ".env"
  let seeder : Seeder := { environment := environmentOf (block.getD []), file }
  let (result, _) ← perform Store.server ((Seeder.cli Layout.declaredIndexes).run seeder)
    Logging.unconfigured Store.empty
  match result with
  | .ok status => return UInt32.ofNat status
  | .error f =>
    IO.eprintln (Text.join [f.problem.name, ": ", f.message]).toDisplay
    return 1

end CommandLine

end InitialLoad

/-- The program, as started from a shell. -/
def main : IO UInt32 := InitialLoad.CommandLine.start
