import Assay.Check.Basic
import Assay.Check.Equality
import Assay.Check.Evaluate
import Assay.Check.Operator
import Assay.Check.Response
import Assay.CommandLine.Arguments
import Assay.CommandLine.Flag
import Assay.CommandLine.Help
import Assay.CommandLine.Plan
import Assay.CommandLine.Settings
import Assay.CommandLine.Transcript
import Assay.Configuration
import Assay.Context
import Assay.Diagnostics.Basic
import Assay.Docker
import Assay.Document.Basic
import Assay.Document.Decode
import Assay.Document.Fault
import Assay.Document.Loose
import Assay.Document.Record
import Assay.Error
import Assay.Event
import Assay.Expression.Evaluate
import Assay.Expression.Leaf
import Assay.Expression.Operand
import Assay.Files.Path
import Assay.Files.Suites
import Assay.Files.Tree
import Assay.Host
import Assay.Http.Request
import Assay.Http.Url
import Assay.Json.Fault
import Assay.Json.Numeral
import Assay.Json.Print
import Assay.Json.Read
import Assay.Libraries.BuiltIn
import Assay.Main
import Assay.Number.Double
import Assay.Number.Reading
import Assay.Number.Shortest
import Assay.Pattern.CharSet
import Assay.Pattern.Parse
import Assay.Pattern.Regex
import Assay.Probe.Exec
import Assay.Probe.File
import Assay.Probe.Port
import Assay.Probe.Process
import Assay.Probe.Request
import Assay.Probe.Step
import Assay.Probe.Text
import Assay.Proofs.Batch.Crew
import Assay.Proofs.Batch.Ends
import Assay.Proofs.Batch.Isolation
import Assay.Proofs.Batch.Pool
import Assay.Proofs.Batch.Report
import Assay.Proofs.Batch.Schedule
import Assay.Proofs.Batch.Totals
import Assay.Proofs.Check.Acceptance
import Assay.Proofs.Check.Conditions
import Assay.Proofs.Check.Integers
import Assay.Proofs.Check.Labels
import Assay.Proofs.Check.Order
import Assay.Proofs.Check.Patterns
import Assay.Proofs.Check.Satisfaction
import Assay.Proofs.Check.Snapshot
import Assay.Proofs.Check.Strengthening
import Assay.Proofs.Check.Unchecked
import Assay.Proofs.CommandLine.Machine
import Assay.Proofs.CommandLine.Preparation
import Assay.Proofs.CommandLine.Verdict
import Assay.Proofs.Context.Layers
import Assay.Proofs.Context.Placeholders
import Assay.Proofs.Context.Structure
import Assay.Proofs.Context.Variables
import Assay.Proofs.Document.Origins
import Assay.Proofs.Document.Reads
import Assay.Proofs.Document.Sound
import Assay.Proofs.Document.Yields
import Assay.Proofs.Expression.Headers
import Assay.Proofs.Expression.Leaf
import Assay.Proofs.Expression.Literal
import Assay.Proofs.Expression.Missing
import Assay.Proofs.Expression.Numeral
import Assay.Proofs.Expression.Order
import Assay.Proofs.Expression.Verdict
import Assay.Proofs.Files.Suites
import Assay.Proofs.Json.Range
import Assay.Proofs.Number.Grammar
import Assay.Proofs.Number.Reading
import Assay.Proofs.Number.Rounding
import Assay.Proofs.Number.Shortest
import Assay.Proofs.Number.Whole
import Assay.Proofs.Probe.Arguments
import Assay.Proofs.Probe.Dialogue
import Assay.Proofs.Probe.Exits
import Assay.Proofs.Probe.Modes
import Assay.Proofs.Probe.Predicates
import Assay.Proofs.Probe.Questions
import Assay.Proofs.Probe.Rows
import Assay.Proofs.Probe.Sockets
import Assay.Proofs.Probe.Targets
import Assay.Proofs.Probe.Texts
import Assay.Proofs.Probe.Transaction
import Assay.Proofs.Retry.Delay
import Assay.Proofs.Retry.History
import Assay.Proofs.Runner.Account
import Assay.Proofs.Runner.Course
import Assay.Proofs.Runner.Diagnosis
import Assay.Proofs.Runner.Events
import Assay.Proofs.Runner.Marks
import Assay.Proofs.Runner.Questions
import Assay.Proofs.Runner.Relay
import Assay.Proofs.Runner.Report
import Assay.Proofs.Runner.Schedule
import Assay.Proofs.Runner.Skipped
import Assay.Proofs.Runner.Steady
import Assay.Proofs.Runner.Suite
import Assay.Proofs.Runner.Trails
import Assay.Proofs.Runner.Waits
import Assay.Proofs.Script.Questions
import Assay.Proofs.Script.Recorded
import Assay.Proofs.Script.Runs
import Assay.Proofs.Script.Trials
import Assay.Proofs.Shell.Occurrence
import Assay.Proofs.Shell.Words
import Assay.Proofs.Suite.Loaded
import Assay.Proofs.Suite.Resolution
import Assay.Proofs.Suite.Setup
import Assay.Proofs.Text.Case
import Assay.Proofs.Text.Joined
import Assay.Proofs.Text.Lines
import Assay.Proofs.Unit.Reread
import Assay.Proofs.Unit.Written
import Assay.Proofs.Value.Equality
import Assay.Proofs.Value.Order
import Assay.Proofs.Value.Paths
import Assay.Rehearsal.Disk
import Assay.Rehearsal.Machine
import Assay.Rehearsal.Play
import Assay.Rehearsal.Pool
import Assay.Rehearsal.Program
import Assay.Rehearsal.World
import Assay.Report.Render
import Assay.Report.Style
import Assay.Retry.Attempts
import Assay.Retry.Delay
import Assay.Runner.Basic
import Assay.Runner.Batch
import Assay.Runner.Suite
import Assay.Runner.Wait
import Assay.Script
import Assay.Suite.Action
import Assay.Suite.Basic
import Assay.Suite.Expectation
import Assay.Suite.Load
import Assay.Suite.Retry
import Assay.Suite.Setup
import Assay.Suite.Step
import Assay.Template
import Assay.Text.Blank
import Assay.Text.Case
import Assay.Text.Category
import Assay.Text.Escaped
import Assay.Text.Pieces
import Assay.Text.Split
import Assay.Text.Utf8
import Assay.Toml.Moment
import Assay.Toml.Print
import Assay.Toml.Read
import Assay.Toml.Scalar
import Assay.Unit.Comparison
import Assay.Unit.Duration
import Assay.Value
import Assay.Walk
import Assay.World
import Assay.Yaml.Block
import Assay.Yaml.Place
import Assay.Yaml.Read
import Assay.Yaml.Scalar
