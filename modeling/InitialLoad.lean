import InitialLoad.Entity.Assignment
import InitialLoad.Main
import InitialLoad.Server.Disturbance
import InitialLoad.Proofs.Course
import InitialLoad.Proofs.SeedCourse
import InitialLoad.Proofs.FailFast
import InitialLoad.Proofs.Documents
import InitialLoad.Proofs.Identifiers
import InitialLoad.Proofs.Stores
import InitialLoad.Proofs.SeedTable
import InitialLoad.Proofs.Histories
import InitialLoad.Proofs.PrincipalLock
import InitialLoad.Proofs.Fallible
import InitialLoad.Proofs.SecondSeed
import InitialLoad.Proofs.LastingIndexes
import InitialLoad.Proofs.DocumentReading
import InitialLoad.Proofs.ReadYourWrites
import InitialLoad.Proofs.Interleaving
import InitialLoad.Proofs.SeedThread
import InitialLoad.Proofs.ConcurrentSeeds
import InitialLoad.Proofs.Actions
import InitialLoad.Proofs.Connection
import InitialLoad.Proofs.ProgramRun
import InitialLoad.Proofs.ExitStatus
import InitialLoad.Proofs.Exchanges
import InitialLoad.Proofs.ClientLife
import InitialLoad.Proofs.Passages
import InitialLoad.Proofs.SeederHistories
import InitialLoad.Proofs.Lifetimes
import InitialLoad.Proofs.GrantScope
import InitialLoad.Proofs.TwoRuns
import InitialLoad.Proofs.PasswordSecrecy
import InitialLoad.Proofs.ConfigurationGate
import InitialLoad.Proofs.LogThreshold
import InitialLoad.Proofs.EntityReading
import InitialLoad.Proofs.DocumentCodec
import InitialLoad.Proofs.FailureLaws
import InitialLoad.Proofs.Insertions
import InitialLoad.Proofs.ErrorTranslation
import InitialLoad.Proofs.Sorting
import InitialLoad.Proofs.PresentIdentifiers
import InitialLoad.Proofs.PlainDocuments
import InitialLoad.Proofs.FaultReports
import InitialLoad.Proofs.DeclaredShape
import InitialLoad.Proofs.EntryHistories
import InitialLoad.Proofs.SettingsSources
import InitialLoad.Proofs.QuotedText
import InitialLoad.Proofs.DuplicateReports
import InitialLoad.Proofs.LogConfiguration
import InitialLoad.Proofs.IndexTables
