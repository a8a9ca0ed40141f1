import Migrations.Calendar.Instant
import Migrations.Change.Basic
import Migrations.Change.Id
import Migrations.Database.Kind
import Migrations.Database.State
import Migrations.Database.Table
import Migrations.Database.Transaction
import Migrations.Failure
import Migrations.Home.Path
import Migrations.Home.Tree
import Migrations.Hook.Basic
import Migrations.Hook.Context
import Migrations.Hook.Program
import Migrations.Hook.Setting
import Migrations.Hook.Slot
import Migrations.Hook.Statements
import Migrations.Ledger
import Migrations.Migrator.Basic
import Migrations.Migrator.Bootstrap
import Migrations.Migrator.NewScript
import Migrations.Migrator.Offline
import Migrations.Migrator.Scaffold
import Migrations.Pattern.Basic
import Migrations.Pattern.CharSet
import Migrations.Pattern.Reader
import Migrations.Plan
import Migrations.Procedure.Access
import Migrations.Procedure.Basic
import Migrations.Run.Report
import Migrations.Run.Runner
import Migrations.RunLock
import Migrations.Script.Basic
import Migrations.Script.Catalog
import Migrations.Script.FileName
import Migrations.Script.Folder
import Migrations.Script.InPlace
import Migrations.Script.Placeholder
import Migrations.Script.Section
import Migrations.Script.Statement
import Migrations.Settings.Basic
import Migrations.Settings.Check
import Migrations.Settings.Document
import Migrations.Settings.Environment
import Migrations.Settings.Fault
import Migrations.Settings.Layout
import Migrations.Settings.Override
import Migrations.Settings.Source
import Migrations.Shell.Command
import Migrations.Shell.Eval
import Migrations.Shell.Machine
import Migrations.Shell.Program
import Migrations.Shell.Reader
import Migrations.Shell.Token
import Migrations.Status
import Migrations.Text.Blank
import Migrations.Text.Category
import Migrations.Text.Encoding
import Migrations.Text.Json
import Migrations.Text.LetterCase
import Migrations.Text.Line
import Migrations.Text.Numeral
import Migrations.Text.Quote
import Migrations.Text.Search
import Migrations.Text.Slice
import Migrations.Yaml.Node
import Migrations.Yaml.Reader
import Migrations.Yaml.Scalar
import Migrations.Proofs.Change.Range
import Migrations.Proofs.Choice
import Migrations.Proofs.Database.Concurrent
import Migrations.Proofs.Database.Immediate
import Migrations.Proofs.Database.Rows
import Migrations.Proofs.Database.View
import Migrations.Proofs.Home.Folder
import Migrations.Proofs.Hook.Form
import Migrations.Proofs.Hook.Ledger
import Migrations.Proofs.Hook.Quiet
import Migrations.Proofs.Hook.Setting
import Migrations.Proofs.Hook.Silent
import Migrations.Proofs.Hook.Work
import Migrations.Proofs.Hook.Writes
import Migrations.Proofs.Ledger
import Migrations.Proofs.Migrator.Bootstrap
import Migrations.Proofs.Migrator.Convergence
import Migrations.Proofs.Migrator.Decision
import Migrations.Proofs.Migrator.History
import Migrations.Proofs.Migrator.Interleaving
import Migrations.Proofs.Migrator.NewScript
import Migrations.Proofs.Migrator.Offline
import Migrations.Proofs.Migrator.Operation
import Migrations.Proofs.Migrator.Planning
import Migrations.Proofs.Migrator.Range
import Migrations.Proofs.Migrator.RollBack
import Migrations.Proofs.Migrator.Serial
import Migrations.Proofs.Migrator.Steps
import Migrations.Proofs.Migrator.Stepwise
import Migrations.Proofs.Migrator.Version
import Migrations.Proofs.Plan
import Migrations.Proofs.Procedure.Ending
import Migrations.Proofs.Procedure.HookCalls
import Migrations.Proofs.Procedure.Lockstep
import Migrations.Proofs.Procedure.Reading
import Migrations.Proofs.Procedure.Steps
import Migrations.Proofs.Procedure.System
import Migrations.Proofs.Run.Agreement
import Migrations.Proofs.Run.Counting
import Migrations.Proofs.Run.Execution
import Migrations.Proofs.Run.HookCalls
import Migrations.Proofs.Run.Interruption
import Migrations.Proofs.Run.Ledger
import Migrations.Proofs.Run.Modes
import Migrations.Proofs.Run.Outcome
import Migrations.Proofs.Run.PerPlan
import Migrations.Proofs.Run.PerScript
import Migrations.Proofs.Run.Schedule
import Migrations.Proofs.Run.Script
import Migrations.Proofs.Run.Steps
import Migrations.Proofs.Run.Stepwise
import Migrations.Proofs.Run.Writes
import Migrations.Proofs.RunLock
import Migrations.Proofs.Script.Catalog
import Migrations.Proofs.Script.Conservation
import Migrations.Proofs.Script.Cutting
import Migrations.Proofs.Script.DelimiterLine
import Migrations.Proofs.Script.FileName
import Migrations.Proofs.Script.Folder
import Migrations.Proofs.Script.Following
import Migrations.Proofs.Script.InPlace
import Migrations.Proofs.Script.Joining
import Migrations.Proofs.Script.Layers
import Migrations.Proofs.Script.Listing
import Migrations.Proofs.Script.Placeholder
import Migrations.Proofs.Script.RoundTrip
import Migrations.Proofs.Script.Section
import Migrations.Proofs.Script.Unfilled
import Migrations.Proofs.Selection
import Migrations.Proofs.Settings.Check
import Migrations.Proofs.Settings.Environment
import Migrations.Proofs.Settings.Production
import Migrations.Proofs.Settings.Source
import Migrations.Proofs.Status
import Migrations.Proofs.Text.LetterCase
import Migrations.Proofs.Text.Line
import Migrations.Proofs.Text.Numeral
import Migrations.Proofs.Text.Occurrence
import Migrations.Proofs.Text.Pieces
import Migrations.Proofs.Text.Slice
