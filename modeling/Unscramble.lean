import Unscramble.CommandLine.Basic
import Unscramble.CommandLine.Help
import Unscramble.CommandLine.Reader
import Unscramble.Console.Basic
import Unscramble.Console.Literal
import Unscramble.Console.Literal.Reader
import Unscramble.Console.Literal.Token
import Unscramble.Console.Markup
import Unscramble.Console.Tag
import Unscramble.Decimal.Shortest
import Unscramble.Detector
import Unscramble.Disk.Basic
import Unscramble.Disk.Canonical
import Unscramble.Disk.Change
import Unscramble.Engine
import Unscramble.Fault
import Unscramble.Json.Basic
import Unscramble.Json.Reader
import Unscramble.Json.Writer
import Unscramble.Main
import Unscramble.Manifest
import Unscramble.Packages
import Unscramble.Path
import Unscramble.Pipeline
import Unscramble.Process
import Unscramble.Program
import Unscramble.Rehearsal
import Unscramble.Scan
import Unscramble.Script.Arithmetic
import Unscramble.Script.Basic
import Unscramble.Script.Builtin
import Unscramble.Script.Condition
import Unscramble.Script.Expansion
import Unscramble.Script.Format
import Unscramble.Script.Octets
import Unscramble.Script.Pattern
import Unscramble.Script.Program
import Unscramble.Script.Reader
import Unscramble.Script.Reader.Source
import Unscramble.Script.Reader.Token
import Unscramble.Script.Reader.Word
import Unscramble.Script.Run
import Unscramble.Script.Signal
import Unscramble.Script.Split
import Unscramble.Script.State
import Unscramble.Script.Tool.Basic
import Unscramble.Script.Tool.Files
import Unscramble.Script.Tool.Text
import Unscramble.Settings.Basic
import Unscramble.Settings.EnvFile
import Unscramble.Settings.Issue
import Unscramble.Settings.Load
import Unscramble.Settings.Reading
import Unscramble.Status
import Unscramble.Step
import Unscramble.Summary
import Unscramble.Sweep
import Unscramble.Table
import Unscramble.Targets
import Unscramble.Text.Blank
import Unscramble.Text.Casing
import Unscramble.Text.Cells
import Unscramble.Text.CharClass
import Unscramble.Text.Digits
import Unscramble.Text.Printable
import Unscramble.Text.Quoted
import Unscramble.Text.Replace
import Unscramble.Text.Resemblance
import Unscramble.Text.Utf8
import Unscramble.Text.Word
import Unscramble.Text.Wrap
import Unscramble.TimeLimit
import Unscramble.Tree
import Unscramble.Walk
import Unscramble.Workspace
import Unscramble.World
import Unscramble.Proofs.Action
import Unscramble.Proofs.Disk.Alike
import Unscramble.Proofs.Disk.Canonical
import Unscramble.Proofs.Discovery
import Unscramble.Proofs.Disk.Content
import Unscramble.Proofs.Faults
import Unscramble.Proofs.FileByFile
import Unscramble.Proofs.Fold
import Unscramble.Proofs.Leftovers
import Unscramble.Proofs.Preflight
import Unscramble.Proofs.Release
import Unscramble.Proofs.Untouched
import Unscramble.Proofs.Unused
import Unscramble.Proofs.Walk
import Unscramble.Proofs.Agreement
import Unscramble.Proofs.Course
import Unscramble.Proofs.Clearing
import Unscramble.Proofs.Disk.DeadEnd
import Unscramble.Proofs.FinalCleanup
import Unscramble.Proofs.Journal
import Unscramble.Proofs.Replacement
import Unscramble.Proofs.Inventory
import Unscramble.Proofs.Verdict
import Unscramble.Proofs.Launch
import Unscramble.Proofs.Interruption
import Unscramble.Proofs.Selection
import Unscramble.Proofs.Succession
import Unscramble.Proofs.Summary
import Unscramble.Proofs.Account
import Unscramble.Proofs.Reports
import Unscramble.Proofs.Rescan
import Unscramble.Proofs.Precedence
import Unscramble.Proofs.Extension
import Unscramble.Proofs.StatusLine
import Unscramble.Proofs.LogChange
import Unscramble.Proofs.Spared
