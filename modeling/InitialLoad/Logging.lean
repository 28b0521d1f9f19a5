import InitialLoad.Failure
import InitialLoad.Text.LetterCase

/-!
# Log records and the process log

A `LogRecord` has a level, the name of its logger and a message.  `Logging` is
the state of the process log: the threshold below which records are dropped, and
the layout of a line once a handler is installed.  A handler is installed at
most once; every later configuration changes nothing.

Until a handler is installed, a record of level warning or above is written as
its bare message.
-/

namespace InitialLoad

/-- The severity of a record. -/
inductive Level where
  | debug
  | info
  | warning
  | error
  | critical
deriving DecidableEq, Repr

namespace Level

/-- The number of a level; a higher one is more severe. -/
def number : Level → Nat
  | .debug => 10
  | .info => 20
  | .warning => 30
  | .error => 40
  | .critical => 50

/-- The name of a level in a line of the log. -/
def name : Level → Text
  | .debug => "DEBUG"
  | .info => "INFO"
  | .warning => "WARNING"
  | .error => "ERROR"
  | .critical => "CRITICAL"

/-- Every level, the least severe first. -/
def all : List Level := [.debug, .info, .warning, .error, .critical]

end Level

/-- A message for the log. -/
structure LogRecord where
  level : Level
  logger : Text
  message : Text
deriving DecidableEq, Repr

/-- What a line shows besides the message: time and level, or the level only. -/
inductive LineLayout where
  | stamped
  | brief
deriving DecidableEq, Repr

/-- The state of the process log. -/
structure Logging where
  threshold : Nat
  layout : Option LineLayout
deriving DecidableEq, Repr

namespace Logging

/-- The log of a process that has not configured it. -/
def unconfigured : Logging := ⟨Level.warning.number, none⟩

/-- The names of thresholds, in upper case. -/
def thresholds : List (Text × Nat) :=
  [("CRITICAL", 50), ("FATAL", 50), ("ERROR", 40), ("WARNING", 30), ("WARN", 30),
   ("INFO", 20), ("DEBUG", 10), ("NOTSET", 0)]

/-- The threshold of a name in any letter case. -/
def threshold? (name : Text) : Option Nat := Entries.get? name.upper thresholds

/-- Installs a handler, unless there is one. -/
def install (threshold : Nat) (layout : LineLayout) (log : Logging) : Logging :=
  match log.layout with
  | some _ => log
  | none => ⟨threshold, some layout⟩

/-- The threshold that a value stands for. -/
def thresholdOf (level : Value) : Except Failure Nat :=
  match level with
  | .text name =>
    match threshold? name with
    | some n => .ok n
    | none => .error (Failure.of (.unknownLevel level))
  | .bytes _ => .error (Failure.of (.unknownLevel level))
  | v => .error (Failure.of (.missingAttribute v.typeName "upper"))

/-- Configures the log with the threshold that a value stands for. -/
def configure (level : Value) (log : Logging) : Except Failure Logging :=
  (thresholdOf level).map fun n => log.install n .stamped

/-- One call to configure the log with a value: whether it succeeds, and the log that it
leaves.  A value that stands for no threshold leaves the log as it was. -/
def attempt (level : Value) (log : Logging) : Except Failure Unit × Logging :=
  match log.configure level with
  | .ok configured => (.ok (), configured)
  | .error f => (.error f, log)

/-- Configures the log for the report of a configuration error: the threshold
stays, and a line shows no time. -/
def configureBriefly (log : Logging) : Logging := log.install log.threshold .brief

/-- The record passes the threshold. -/
def admits (log : Logging) (record : LogRecord) : Bool := log.threshold ≤ record.level.number

/-- The text that an admitted record puts into the log at the time `stamp`. -/
def entry? (log : Logging) (stamp : Text) (record : LogRecord) : Option Text :=
  match log.layout with
  | some .stamped =>
    some (Text.join [stamp, " | ", record.level.name, " | ", record.message])
  | some .brief => some (Text.join [record.level.name, " | ", record.message])
  | none => if Level.warning.number ≤ record.level.number then some record.message else none

/-- The lines that a record puts into the log at the time `stamp`. -/
def lines (log : Logging) (stamp : Text) (record : LogRecord) : List Text :=
  if log.admits record then
    match log.entry? stamp record with
    | some entry => entry.lines
    | none => []
  else []

theorem install_installed (n m : Nat) (a b : LineLayout) (log : Logging) :
    (log.install n a).install m b = log.install n a := by
  cases h : log.layout <;> simp [install, h]

end Logging

end InitialLoad
