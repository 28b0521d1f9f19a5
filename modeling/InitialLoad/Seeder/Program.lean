import InitialLoad.Seeder.State
import InitialLoad.Seeding.InitialData
import InitialLoad.Seeding.Steps

/-!
# The program

Three layers.  `run` connects, seeds with the initial data and reads back, and
passes every failure on.  `exitStatus` turns the outcome of `run` into the exit status:
it reports a failure in one record and closes the client in any case; only a
cancellation is passed on.  `cli` is the whole process: it resolves the settings
and configures the log first, and refuses to start when either is impossible.
-/

namespace InitialLoad.Seeder

/-- The logger of the program. -/
def logger : Text := "appstore_seed"

/-- Writes a record of the program. -/
def write (level : Level) (message : Text) : Action Unit :=
  Action.writeAll [⟨level, logger, message⟩]

/-- Seeds a database for a principal, by default the application's, with data
that are by default the initial ones. -/
def seed (table : IndexTable) (database : Text) (principal : Option Value)
    (apps : List Value := Seeding.initialApps.map App.toValue)
    (users : List Value := Seeding.initialUsers.map User.toValue) : Action Seeding.Summary := do
  let principal ← match principal with
    | some p => pure p
    | none => DatabaseUser.toValue <$> appPrincipal
  Action.ofJob (Seeding.seed database table principal apps users)

/-- The report on a complete seed. -/
def completion (s : Seeding.Summary) : Text :=
  Text.join ["Seed complete: user '", s.principal.wording, "', ", Text.ofNat s.apps, " apps, ",
    Text.ofNat s.users, " users in ", s.elapsed.toText, "s"]

/-- The report on the identifiers that are present. -/
def inventory (p : Seeding.Present) : Text :=
  Text.join ["apps: ", (Value.list p.apps).literal, " | users: ", (Value.list p.users).literal]

/-- Connects, seeds and reads back. -/
def run (table : IndexTable) : Action Seeding.Summary := do
  let _ ← ping
  write .info "Connected to MongoDB"
  let database ← getDatabase none
  let summary ← seed table database none
  write .info (completion summary)
  let present ← Action.ofJob (Seeding.verify database)
  write .info (inventory present)
  return summary

/-- The report on a failure, with its immediate cause. -/
def failureReport (f : Failure) : Text :=
  match f.causes with
  | [] => Text.join ["Seeding failed: ", f.message]
  | cause :: _ =>
    Text.join ["Seeding failed: ", f.message, " (", cause.name, ": ", cause.message, ")"]

/-- Runs the program to its exit status. -/
def exitStatus (table : IndexTable) : Action Nat := do
  match ← Action.attempt (run table) with
  | .ok _ =>
    closeClient
    return 0
  | .error f =>
    if f.problem.isCancellation then
      closeClient
      Action.fail f
    else
      write .error (failureReport f)
      closeClient
      return 1

/-- Takes over a configuration of the log. -/
def useLogging (log : Logging) : Action Unit :=
  ExceptT.mk fun s => .configure log (.done (.ok (), s))

/-- Resolves the settings and configures the log accordingly. -/
def configure : Action Settings := do
  let settings ← getSettings
  let log ← Action.ofJob
    (Job.ofExcept (Logging.unconfigured.configure (.text settings.logLevel)))
  useLogging log
  return settings

/-- A line of sixty equals signs. -/
def rule : Text := List.replicate 60 (CodePoint.ofChar '=')

/-- The whole process: its exit status. -/
def cli (table : IndexTable) : Action Nat := do
  match ← Action.attempt configure with
  | .error f =>
    if f.problem.isUnacceptable then
      useLogging Logging.unconfigured.configureBriefly
      write .error (Text.join ["Configuration error: ", f.message])
      return 1
    else Action.fail f
  | .ok settings =>
    write .info rule
    write .info "Appstore Seed Loader"
    write .info (Text.join ["Target database: ", settings.databaseName])
    write .info rule
    exitStatus table

end InitialLoad.Seeder
