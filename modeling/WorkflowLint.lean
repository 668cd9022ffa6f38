import WorkflowLint.CommandLine.Arguments
import WorkflowLint.CommandLine.Check
import WorkflowLint.CommandLine.Help
import WorkflowLint.CommandLine.Program
import WorkflowLint.CommandLine.Tally
import WorkflowLint.Coordinator.Handler
import WorkflowLint.Coordinator.State
import WorkflowLint.FileTree
import WorkflowLint.Glob
import WorkflowLint.Json.Basic
import WorkflowLint.Json.Parser
import WorkflowLint.Json.Printer
import WorkflowLint.Json.Shape
import WorkflowLint.Lint.Diagnosis
import WorkflowLint.Lint.Diagnostic
import WorkflowLint.Lint.Finding
import WorkflowLint.Lint.HelperReport
import WorkflowLint.Lint.Outcome
import WorkflowLint.Lint.Script
import WorkflowLint.Lint.Severity
import WorkflowLint.Main
import WorkflowLint.Number.Binary64
import WorkflowLint.Number.Shortest
import WorkflowLint.Path
import WorkflowLint.Proofs.Coordinator.Clerk
import WorkflowLint.Proofs.Coordinator.Coverage
import WorkflowLint.Proofs.Coordinator.Desk
import WorkflowLint.Proofs.Coordinator.File
import WorkflowLint.Proofs.Coordinator.HostView
import WorkflowLint.Proofs.Coordinator.Isolation
import WorkflowLint.Proofs.Coordinator.LatestRun
import WorkflowLint.Proofs.Coordinator.Life
import WorkflowLint.Proofs.Coordinator.Notices
import WorkflowLint.Proofs.Coordinator.Reactions
import WorkflowLint.Proofs.Coordinator.LiveRuns
import WorkflowLint.Proofs.Coordinator.Renumber
import WorkflowLint.Proofs.Coordinator.Slots
import WorkflowLint.Proofs.Coordinator.Turns
import WorkflowLint.Published
import WorkflowLint.Rehearsal
import WorkflowLint.Server.Conversation
import WorkflowLint.Server.Frame
import WorkflowLint.Server.Message
import WorkflowLint.Server.Relay
import WorkflowLint.Server.Session
import WorkflowLint.Settings.Basic
import WorkflowLint.Settings.File
import WorkflowLint.Settings.Layer
import WorkflowLint.Settings.Reference
import WorkflowLint.Settings.Resolution
import WorkflowLint.Shell.Arithmetic
import WorkflowLint.Shell.Builtin
import WorkflowLint.Shell.Parser
import WorkflowLint.Shell.Pattern
import WorkflowLint.Shell.Run
import WorkflowLint.Shell.State
import WorkflowLint.Shell.Syntax
import WorkflowLint.Slot.Basic
import WorkflowLint.Slot.Board
import WorkflowLint.Slot.Pauses
import WorkflowLint.Status
import WorkflowLint.Table
import WorkflowLint.Text.Blank
import WorkflowLint.Text.Digit
import WorkflowLint.Text.Excerpt
import WorkflowLint.Text.Lines
import WorkflowLint.Text.Printable
import WorkflowLint.Text.Quoted
import WorkflowLint.Text.Utf8
import WorkflowLint.Toml.Basic
import WorkflowLint.Toml.Parser
import WorkflowLint.Toml.Scalar
import WorkflowLint.Toml.Text
import WorkflowLint.Tool.Machine
import WorkflowLint.Tool.Report
import WorkflowLint.Tool.Request
import WorkflowLint.Tool.Run
import WorkflowLint.Url.Basic
import WorkflowLint.Url.Host
import WorkflowLint.Url.Parser
import WorkflowLint.Url.Percent
import WorkflowLint.Url.Punycode
import WorkflowLint.Workflow
import WorkflowLint.Workspace
import WorkflowLint.Proofs.Splits
import WorkflowLint.Proofs.Coordinator.Leftovers
import WorkflowLint.Proofs.Coordinator.Outdated
import WorkflowLint.Proofs.Places
import WorkflowLint.Proofs.Tool.Lookup
import WorkflowLint.Proofs.Settings.Laying
import WorkflowLint.Proofs.Settings.Trust
import WorkflowLint.Proofs.Coordinator.Screen
import WorkflowLint.Proofs.Coordinator.Settlement
import WorkflowLint.Proofs.FileUrls
import WorkflowLint.Proofs.CommandLine.Files
import WorkflowLint.Proofs.CommandLine.Opening
import WorkflowLint.Proofs.CommandLine.Underway
import WorkflowLint.Proofs.CommandLine.Report
import WorkflowLint.Proofs.Server.Frames
import WorkflowLint.Proofs.Server.Notifications
import WorkflowLint.Proofs.Server.Lifecycle
import WorkflowLint.Proofs.Server.Discipline
import WorkflowLint.Proofs.Server.Service
import WorkflowLint.Proofs.Server.Soundness
import WorkflowLint.Proofs.Server.Progress
import WorkflowLint.Proofs.Server.Delivery
import WorkflowLint.Proofs.Server.Greeting
import WorkflowLint.Proofs.Coordinator.Rehearsed
import WorkflowLint.Proofs.Server.Schedule
import WorkflowLint.Proofs.Slot.Fates
import WorkflowLint.Proofs.Text.Decoding
import WorkflowLint.Proofs.Text.Words
import WorkflowLint.Proofs.Server.Headers
import WorkflowLint.Proofs.Server.Streams
import WorkflowLint.Proofs.Server.ReadLoop
import WorkflowLint.Proofs.Coordinator.Terms
import WorkflowLint.Proofs.Server.Coherence
import WorkflowLint.Proofs.Slot.Vigil
import WorkflowLint.Proofs.Slot.Bursts
import WorkflowLint.Proofs.Lint.HelperReports
import WorkflowLint.Proofs.Lint.Scripts
import WorkflowLint.Proofs.Text.Sizes
import WorkflowLint.Proofs.Lint.Checked
import WorkflowLint.Proofs.Lint.Mapping
import WorkflowLint.Proofs.Lint.Precedence
import WorkflowLint.Proofs.Json.Fields
import WorkflowLint.Proofs.Number.Rounding
import WorkflowLint.Proofs.Json.Values
import WorkflowLint.Proofs.Json.Scalars
import WorkflowLint.Proofs.Json.RoundTrip
import WorkflowLint.Proofs.Lint.Reading
import WorkflowLint.Proofs.Tool.Answers
import WorkflowLint.Proofs.Tool.Missing
import WorkflowLint.Proofs.Number.Widths
import WorkflowLint.Proofs.Text.Excerpts
import WorkflowLint.Proofs.Tool.Quotes
import WorkflowLint.Proofs.Settings.Gating
import WorkflowLint.Proofs.Paths
import WorkflowLint.Proofs.Coordinator.Checks
import WorkflowLint.Proofs.Locations
import WorkflowLint.Proofs.Settings.References
