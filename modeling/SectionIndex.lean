import SectionIndex.Block.Basic
import SectionIndex.Block.Cell
import SectionIndex.Block.Finder
import SectionIndex.Block.Parser
import SectionIndex.Block.Printer
import SectionIndex.Block.Splice
import SectionIndex.CommandLine.Arguments
import SectionIndex.CommandLine.Glob
import SectionIndex.CommandLine.Help
import SectionIndex.CommandLine.Report
import SectionIndex.CommandLine.Run
import SectionIndex.CommandLine.Switch
import SectionIndex.CommandLine.Wildcard
import SectionIndex.Companion.Document
import SectionIndex.Fault
import SectionIndex.Files.Lookup
import SectionIndex.Files.Path
import SectionIndex.Files.Resolve
import SectionIndex.Files.Tree
import SectionIndex.Files.Write
import SectionIndex.Indexing.Resolve
import SectionIndex.Indexing.Source
import SectionIndex.Json.Loose
import SectionIndex.Json.Parser
import SectionIndex.Json.Printer
import SectionIndex.Json.Record
import SectionIndex.Json.Value
import SectionIndex.Language.Basic
import SectionIndex.Language.Table
import SectionIndex.Main
import SectionIndex.Number.Binary
import SectionIndex.Number.Shortest
import SectionIndex.Pattern.Basic
import SectionIndex.Scan.Auto
import SectionIndex.Scan.Explicit
import SectionIndex.Section.Basic
import SectionIndex.Section.Index
import SectionIndex.Section.Unique
import SectionIndex.Service.Payload
import SectionIndex.Service.Rpc
import SectionIndex.Service.Stdio
import SectionIndex.Service.Tool
import SectionIndex.Service.Web
import SectionIndex.Settings.Basic
import SectionIndex.Settings.EnvironmentFile
import SectionIndex.Settings.Load
import SectionIndex.Settings.LogLevel
import SectionIndex.Text.Basic
import SectionIndex.Text.Digit
import SectionIndex.Text.LetterCase
import SectionIndex.Text.Lines
import SectionIndex.Text.Numeral
import SectionIndex.Text.Points
import SectionIndex.Text.Printable
import SectionIndex.Text.Utf8
import SectionIndex.Text.Wide
import SectionIndex.Text.Word
import SectionIndex.Time.Moment
import SectionIndex.Upkeep.Generate
import SectionIndex.Upkeep.Outcome
import SectionIndex.Upkeep.Record
import SectionIndex.Upkeep.Verify
import SectionIndex.Proofs.Text.Lines
import SectionIndex.Proofs.Text.Numeral
import SectionIndex.Proofs.Block.Cell
import SectionIndex.Proofs.Block.Row
import SectionIndex.Proofs.Block.Finder
import SectionIndex.Proofs.Block.Printer
import SectionIndex.Proofs.Block.RoundTrip
import SectionIndex.Proofs.Files.Alike
import SectionIndex.Proofs.Pattern.Groups
import SectionIndex.Proofs.Section.Unique
import SectionIndex.Proofs.Scan.Names
import SectionIndex.Proofs.Companion.Document
import SectionIndex.Proofs.Indexing.Names
import SectionIndex.Proofs.Upkeep.Splice
import SectionIndex.Proofs.Upkeep.Generate
import SectionIndex.Proofs.Upkeep.History
import SectionIndex.Proofs.Text.FileLines
import SectionIndex.Proofs.Scan.Shift
import SectionIndex.Proofs.Scan.BlockLines
import SectionIndex.Proofs.Companion.Comments
import SectionIndex.Proofs.Indexing.Shift
import SectionIndex.Proofs.Indexing.Source
import SectionIndex.Proofs.Upkeep.FirstIndex
import SectionIndex.Proofs.Files.Resolve
import SectionIndex.Proofs.Companion.Overlong
import SectionIndex.Proofs.Service.Apart
import SectionIndex.Proofs.Service.Answer
import SectionIndex.Proofs.Service.Confinement
import SectionIndex.Proofs.Scan.Layout
import SectionIndex.Proofs.Companion.Order
import SectionIndex.Proofs.Indexing.Order
import SectionIndex.Proofs.Text.LineCount
import SectionIndex.Proofs.Block.Search
import SectionIndex.Proofs.Upkeep.Written
import SectionIndex.Proofs.Upkeep.Table
import SectionIndex.Proofs.Block.Replace
import SectionIndex.Proofs.Text.Pieces
import SectionIndex.Proofs.Block.AnyCell
import SectionIndex.Proofs.Block.BrokenRow
import SectionIndex.Proofs.Block.Reread
import SectionIndex.Proofs.Upkeep.Recognition
import SectionIndex.Proofs.Scan.Openings
import SectionIndex.Proofs.Upkeep.Marks
import SectionIndex.Proofs.Upkeep.Verify
import SectionIndex.Proofs.Upkeep.FreshCheck
import SectionIndex.Proofs.Text.Returns
import SectionIndex.Proofs.Block.Returns
import SectionIndex.Proofs.Upkeep.Returns
import SectionIndex.Proofs.Upkeep.Reading
import SectionIndex.Proofs.Block.Numerals
import SectionIndex.Proofs.Block.LostName
import SectionIndex.Proofs.Companion.Numerals
import SectionIndex.Proofs.Upkeep.Faults
import SectionIndex.Proofs.Block.Again
import SectionIndex.Proofs.Upkeep.Places
import SectionIndex.Proofs.Upkeep.Twice
import SectionIndex.Proofs.Json.Texts
import SectionIndex.Proofs.Json.RoundTrip
import SectionIndex.Proofs.Json.Limits
import SectionIndex.Proofs.Service.Responses
import SectionIndex.Proofs.Service.Listing
import SectionIndex.Proofs.Service.Numbers
import SectionIndex.Proofs.Service.Agreement
import SectionIndex.Proofs.Service.Repetition
import SectionIndex.Proofs.Service.Endurance
import SectionIndex.Proofs.Json.Printable
import SectionIndex.Proofs.Service.Framing
import SectionIndex.Upkeep.Action
import SectionIndex.Proofs.Upkeep.Atomic
import SectionIndex.Proofs.Upkeep.Restoration
import SectionIndex.Proofs.Files.Linkless
import SectionIndex.Proofs.CommandLine.Batch
import SectionIndex.Proofs.Scan.Regions
import SectionIndex.Proofs.Scan.Tiling
import SectionIndex.Proofs.Upkeep.Relocation
import SectionIndex.Proofs.Upkeep.Replacement
import SectionIndex.Proofs.Section.Renaming
import SectionIndex.Proofs.Pattern.Sequence
import SectionIndex.Proofs.Scan.RegionMarks
import SectionIndex.Proofs.Scan.Document
import SectionIndex.Proofs.Companion.Table
import SectionIndex.Proofs.Companion.Printed
import SectionIndex.Proofs.Text.Inserted
import SectionIndex.Proofs.Upkeep.Below
import SectionIndex.Proofs.Upkeep.Drift
import SectionIndex.Proofs.Indexing.Reading
import SectionIndex.Proofs.CommandLine.Expansion
import SectionIndex.Proofs.Files.Canonical
import SectionIndex.Proofs.Files.Workspace
import SectionIndex.Proofs.Upkeep.Forgery
import SectionIndex.Proofs.Time.Calendar
import SectionIndex.Proofs.Time.Stamp
import SectionIndex.Proofs.Upkeep.Rescan
