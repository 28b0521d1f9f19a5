import InitialLoad.Server.Procedure
import InitialLoad.Settings.Resolution

/-!
# The seeder

A `Seeder` is what a process keeps from one action to the next: its environment,
the environment file, the settings once they were resolved, and the one client
that all actions share.  An `Action` is a job that may change this state; the
change stays when the action fails.

Settings are resolved once and then kept, but a failure to resolve them is not.
The client is made when it is first needed, for the address in the settings at
that moment, and is kept until it is closed.  A client refuses some names for a
database before any call is made.
-/

namespace InitialLoad

/-- What a process keeps from one action to the next.  `nameRefusal?` says what a client
has against a name for a database, if anything; that never changes. -/
structure Seeder where
  environment : Environment := []
  file : Option Bytes := none
  settings : Option Settings := none
  client : Option Text := none
  nameRefusal? : Text → Option Text := fun _ => none

/-- A job that may change the seeder. -/
abbrev Action (α : Type) := ExceptT Failure (StateT Seeder Procedure) α

namespace Action

variable {α : Type}

/-- A job as an action that leaves the seeder as it is. -/
def ofJob (job : Job α) : Action α :=
  ExceptT.mk fun s => job.run.bind fun result => .done (result, s)

/-- Writes records. -/
def writeAll : List LogRecord → Action Unit
  | [] => pure ()
  | r :: rest => ExceptT.mk fun s => .record r ((writeAll rest).run s)

/-- What comes of an action: its result or its failure. -/
def attempt (action : Action α) : Action (Except Failure α) :=
  ExceptT.mk fun s =>
    (action.run s).bind fun (result, after) => .done (.ok result, after)

/-- Fails. -/
def fail (f : Failure) : Action α := ExceptT.mk fun s => .done (.error f, s)

/-- The present state. -/
def state : Action Seeder := ExceptT.mk fun s => .done (.ok s, s)

/-- Changes the state. -/
def update (change : Seeder → Seeder) : Action Unit :=
  ExceptT.mk fun s => .done (.ok (), change s)

end Action

namespace Seeder

/-- Resolves the settings from the given values, the environment and, unless it
is to be ignored, the environment file. -/
def resolveSettings (given : Document) (ignoreFile : Bool)
    (names : Settings.GivenNames := .exact) : Action Settings := do
  let seeder ← Action.state
  match if ignoreFile then none else seeder.file with
  | none => Action.ofJob (Job.ofExcept (Settings.resolve ⟨names, given, seeder.environment, []⟩))
  | some bytes =>
    let (file, reports) ← Action.ofJob (Job.ofExcept (Settings.loadFile seeder.environment bytes))
    Action.writeAll reports
    Action.ofJob (Job.ofExcept (Settings.resolve ⟨names, given, seeder.environment, file⟩))

/-- The settings, resolved at the first use. -/
def getSettings : Action Settings := do
  let seeder ← Action.state
  match seeder.settings with
  | some settings => return settings
  | none =>
    let settings ← resolveSettings [] false
    Action.update fun s => { s with settings := some settings }
    return settings

/-- Forgets the settings. -/
def clearSettings (s : Seeder) : Seeder := { s with settings := none }

/-- The application's database user by the settings. -/
def appPrincipal : Action DatabaseUser := do
  let settings ← getSettings
  return settings.principal

/-- The client, by the address it was made for; it is made at the first use. -/
def getClient : Action Text := do
  let seeder ← Action.state
  match seeder.client with
  | some uri => return uri
  | none =>
    let settings ← getSettings
    Action.ofJob (Job.request (.connect settings.uri))
    Action.update fun s => { s with client := some settings.uri }
    return settings.uri

/-- Closes the client, if there is one; a client that cannot be closed stays. -/
def closeClient : Action Unit := do
  let seeder ← Action.state
  match seeder.client with
  | none => return ()
  | some _ =>
    Action.ofJob (Job.request .close)
    Action.update fun s => { s with client := none }

/-- The name of the database that is meant: the given one, or that of the settings when
none is given or the given one is empty. -/
def chosenName : Option Text → Action Text
  | some n => if n.isEmpty then do return (← getSettings).databaseName else pure n
  | none => do return (← getSettings).databaseName

/-- The database of a name, unless the client refuses the name. -/
def databaseNamed (name : Text) (s : Seeder) : Except Failure Text :=
  match s.nameRefusal? name with
  | none => .ok name
  | some message => .error (Failure.of (.troubled .invalidName message))

/-- A database, by its name. -/
def getDatabase (name : Option Text) : Action Text := do
  let _ ← getClient
  let chosen ← chosenName name
  let seeder ← Action.state
  Action.ofJob (Job.ofExcept (seeder.databaseNamed chosen))

/-- Asks the server for a sign of life. -/
def ping : Action Document := do
  let _ ← getClient
  Action.ofJob (Job.request .ping)

end Seeder

end InitialLoad
