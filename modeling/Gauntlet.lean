import Gauntlet.Application
import Gauntlet.Archive.Checksum
import Gauntlet.Archive.Directory
import Gauntlet.Archive.Entry
import Gauntlet.Archive.Fault
import Gauntlet.Archive.Inflate
import Gauntlet.Archive.PrefixCode
import Gauntlet.Archive.Target
import Gauntlet.Archive.Unpack
import Gauntlet.Artifacts
import Gauntlet.Build
import Gauntlet.Case
import Gauntlet.CaseLog
import Gauntlet.CaseResult
import Gauntlet.Command
import Gauntlet.Course
import Gauntlet.Datum
import Gauntlet.Datum.Json
import Gauntlet.Datum.Yaml
import Gauntlet.Decimal
import Gauntlet.Decimal.Nearest
import Gauntlet.Decimal.Places
import Gauntlet.Disk
import Gauntlet.Disk.Directory
import Gauntlet.Disk.File
import Gauntlet.Disk.Fixture
import Gauntlet.Disk.Resolve
import Gauntlet.Duration
import Gauntlet.Failure
import Gauntlet.Harness
import Gauntlet.Harness.Control
import Gauntlet.Harness.Session
import Gauntlet.Host
import Gauntlet.Instant
import Gauntlet.Main
import Gauntlet.Metrics
import Gauntlet.Numeral
import Gauntlet.Path
import Gauntlet.Pool
import Gauntlet.Proofs.Acceptance
import Gauntlet.Proofs.Artifacts
import Gauntlet.Proofs.Calendar
import Gauntlet.Proofs.Calls
import Gauntlet.Proofs.CaseNames
import Gauntlet.Proofs.CleanPath
import Gauntlet.Proofs.Collector
import Gauntlet.Proofs.Conduct
import Gauntlet.Proofs.Confinement
import Gauntlet.Proofs.Control
import Gauntlet.Proofs.Copying
import Gauntlet.Proofs.Counting
import Gauntlet.Proofs.Destination
import Gauntlet.Proofs.Digits
import Gauntlet.Proofs.Disk
import Gauntlet.Proofs.Durations
import Gauntlet.Proofs.Elsewhere
import Gauntlet.Proofs.ErrorLabel
import Gauntlet.Proofs.EscapeSequence
import Gauntlet.Proofs.ExitCode
import Gauntlet.Proofs.Extraction
import Gauntlet.Proofs.Flow
import Gauntlet.Proofs.Glyphs
import Gauntlet.Proofs.Growth
import Gauntlet.Proofs.Heedless
import Gauntlet.Proofs.Interleaving
import Gauntlet.Proofs.Isolation
import Gauntlet.Proofs.JsonReading
import Gauntlet.Proofs.Leftovers
import Gauntlet.Proofs.LogArea
import Gauntlet.Proofs.Lossless
import Gauntlet.Proofs.Path
import Gauntlet.Proofs.Phases
import Gauntlet.Proofs.PlainPath
import Gauntlet.Proofs.PlainWalk
import Gauntlet.Proofs.Pool
import Gauntlet.Proofs.PoolEnd
import Gauntlet.Proofs.Precedence
import Gauntlet.Proofs.Refresh
import Gauntlet.Proofs.Regex
import Gauntlet.Proofs.Resolving
import Gauntlet.Proofs.Restatement
import Gauntlet.Proofs.Rollback
import Gauntlet.Proofs.Selecting
import Gauntlet.Proofs.Serving
import Gauntlet.Proofs.SettingKeys
import Gauntlet.Proofs.SortedMap
import Gauntlet.Proofs.StageLog
import Gauntlet.Proofs.Stages
import Gauntlet.Proofs.Streams
import Gauntlet.Proofs.Stripping
import Gauntlet.Proofs.Tally
import Gauntlet.Proofs.Transcript
import Gauntlet.Proofs.Transparency
import Gauntlet.Proofs.Unpack
import Gauntlet.Proofs.Utf8
import Gauntlet.Proofs.Vantage
import Gauntlet.Proofs.Verdict
import Gauntlet.Proofs.Views
import Gauntlet.Proofs.Ways
import Gauntlet.Proofs.WrittenFile
import Gauntlet.Rehearsal
import Gauntlet.Report.Content
import Gauntlet.Report.File
import Gauntlet.Report.Flow
import Gauntlet.Report.Summary
import Gauntlet.Report.Table
import Gauntlet.Run
import Gauntlet.Run.Collector
import Gauntlet.Run.Conduct
import Gauntlet.Run.Identifier
import Gauntlet.Selection
import Gauntlet.Service
import Gauntlet.Service.Address
import Gauntlet.Service.Healthz
import Gauntlet.Service.Host
import Gauntlet.Settings
import Gauntlet.Settings.Choice
import Gauntlet.Settings.CommandLine
import Gauntlet.Settings.File
import Gauntlet.Settings.Flag
import Gauntlet.Shell.Arithmetic
import Gauntlet.Shell.Commands
import Gauntlet.Shell.Condition
import Gauntlet.Shell.Fields
import Gauntlet.Shell.Group
import Gauntlet.Shell.Home
import Gauntlet.Shell.Limits
import Gauntlet.Shell.Pattern
import Gauntlet.Shell.Printing
import Gauntlet.Shell.Process
import Gauntlet.Shell.Program
import Gauntlet.Shell.Reading
import Gauntlet.Shell.Running
import Gauntlet.Shell.Script
import Gauntlet.Shell.Signal
import Gauntlet.Shell.Source
import Gauntlet.Shell.Streams
import Gauntlet.Shell.Tasks
import Gauntlet.Shell.Tool
import Gauntlet.Shell.Tool.Copying
import Gauntlet.Shell.Tool.Counting
import Gauntlet.Shell.Tool.Linking
import Gauntlet.Shell.Tool.Listing
import Gauntlet.Shell.Tool.Naming
import Gauntlet.Shell.Tool.Permission
import Gauntlet.Shell.Tool.Removing
import Gauntlet.Shell.Tool.Stamping
import Gauntlet.Shell.Tool.Testing
import Gauntlet.Shell.Tools
import Gauntlet.SortedMap
import Gauntlet.Span
import Gauntlet.Terminal
import Gauntlet.Text
import Gauntlet.Text.CodePoint
import Gauntlet.Text.Escape
import Gauntlet.Text.LowerCase
import Gauntlet.Text.Printable
import Gauntlet.Text.Quoted
import Gauntlet.Text.Width
import Gauntlet.World
import Gauntlet.Yaml.Cursor
import Gauntlet.Yaml.Decoding
import Gauntlet.Yaml.Dynamic
import Gauntlet.Yaml.Fault
import Gauntlet.Yaml.Lexeme
import Gauntlet.Yaml.Reading
import Gauntlet.Yaml.Scalar
import Gauntlet.Yaml.Timestamp
import Gauntlet.Yaml.Token
import Gauntlet.Yaml.TokenStream
import Gauntlet.Yaml.Tree
import Gauntlet.Yaml.Writing
