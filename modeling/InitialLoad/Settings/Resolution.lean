import InitialLoad.Entity.Reading
import InitialLoad.Logging
import InitialLoad.Settings.Basic
import InitialLoad.Settings.EnvironmentFile

/-!
# Resolving the settings

A setting takes its value from the first of four sources that has one: the
values given by the caller, the environment, the environment file, the default.
In the environment and in the file names are compared in lower case, and of
several spellings of one name the last one counts.  An empty value is a value;
a name without a value in the file is none.

A value is given under the name of the setting itself; any other name is no
setting's.  Releases of the settings library differ in this, so `GivenNames`
also has the reading in which another case of the name will do.
-/

namespace InitialLoad

/-- The variables of a process: names and values, in order of arrival. -/
abbrev Environment := Entries Text

namespace Settings

/-- The last entry whose name is `name` in lower case. -/
def lastSpelled? {α : Type} (name : Text) (entries : Entries α) : Option α :=
  entries.foldl (fun found entry => if entry.1.lower = name then some entry.2 else found) none

/-- Under which names a value is given for a setting: under its own alone, or
in any case when there is none under its own. -/
inductive GivenNames where
  | exact
  | anyCase
deriving DecidableEq, Repr

/-- What is given for a setting of this name. -/
def GivenNames.find? {α : Type} (names : GivenNames) (name : Text) (given : Entries α) : Option α :=
  match given.get? name with
  | some v => some v
  | none =>
    match names with
    | .exact => none
    | .anyCase => lastSpelled? name given

/-- Where settings are looked up, the first source first. -/
structure Sources where
  names : GivenNames
  given : Document
  environment : Environment
  file : Entries (Option Text)

/-- The value that the sources have for a setting. -/
def Sources.value (sources : Sources) (setting : SettingName) : Value :=
  match sources.names.find? setting.name sources.given with
  | some v => v
  | none =>
    match lastSpelled? setting.name sources.environment with
    | some t => .text t
    | none =>
      match lastSpelled? setting.name sources.file with
      | some (some t) => .text t
      | _ => .text setting.default

/-- What is read for a setting: it has to be a text. -/
def Sources.reading (sources : Sources) (setting : SettingName) : Reading Text :=
  Reading.under (.field setting.name) (sources.value setting).readText

/-- The settings that the sources give, or every fault in them. -/
def resolve (sources : Sources) : Except Failure Settings :=
  match Reading.gather (SettingName.all.map sources.reading) with
  | .ok _ => .ok (of fun s => (sources.reading s).toOption.getD s.default)
  | .error faults => .error (Failure.of (.invalid "Settings" faults))

/-- The logger that reports statements which cannot be read. -/
def fileLogger : Text := "dotenv.main"

/-- The report of a statement that cannot be read. -/
def faultyStatement (line : Nat) : LogRecord :=
  ⟨.warning, fileLogger,
    Text.join ["python-dotenv could not parse statement starting at line ", Text.ofNat line]⟩

/-- The entries of an environment file, and the reports on its statements. -/
def loadFile (environment : Environment) (bytes : Bytes) :
    Except Failure (Entries (Option Text) × List LogRecord) :=
  match EnvironmentFile.textOf bytes with
  | .error fault => .error (Failure.of (.undecodable fault))
  | .ok t =>
    let statements := EnvironmentFile.statements t
    .ok (EnvironmentFile.evaluate environment (EnvironmentFile.assignments statements),
      (EnvironmentFile.faultyLines statements).map faultyStatement)

end Settings

end InitialLoad
