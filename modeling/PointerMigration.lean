import PointerMigration.Address
import PointerMigration.Address.Motion
import PointerMigration.Address.Token
import PointerMigration.Command.Flag
import PointerMigration.Command.Line
import PointerMigration.Command.Run
import PointerMigration.Command.Workers
import PointerMigration.Datum
import PointerMigration.Datum.Json
import PointerMigration.Datum.MessagePack
import PointerMigration.Diff
import PointerMigration.Diff.Compare
import PointerMigration.Diff.HalfMatch
import PointerMigration.Diff.Hunk
import PointerMigration.Diff.LineRune
import PointerMigration.Diff.Middle
import PointerMigration.Diff.Script
import PointerMigration.Diff.Tidy
import PointerMigration.Edit.Buffer
import PointerMigration.Edit.Directive
import PointerMigration.Edit.Patch
import PointerMigration.Edit.PatchSet
import PointerMigration.Edit.Problem
import PointerMigration.Edit.Replacement
import PointerMigration.Edit.Stream
import PointerMigration.Files.Tree
import PointerMigration.Log
import PointerMigration.Main
import PointerMigration.Migration.Classify
import PointerMigration.Migration.Session
import PointerMigration.Migration.Settings
import PointerMigration.Migration.SettingsFile
import PointerMigration.Migration.Use
import PointerMigration.Migration.Verdict
import PointerMigration.Pattern.CharClass
import PointerMigration.Pattern.Expr
import PointerMigration.Pattern.Program
import PointerMigration.Pattern.Reader
import PointerMigration.Pattern.Search
import PointerMigration.Proofs.AbsoluteAddresses
import PointerMigration.Proofs.Acceptance
import PointerMigration.Proofs.AddressBounds
import PointerMigration.Proofs.AddressRanges
import PointerMigration.Proofs.AddressTokens
import PointerMigration.Proofs.Block
import PointerMigration.Proofs.BufferReads
import PointerMigration.Proofs.CarriedSettings
import PointerMigration.Proofs.CommaAddresses
import PointerMigration.Proofs.Comparison
import PointerMigration.Proofs.CompleteBlocks
import PointerMigration.Proofs.CutStream
import PointerMigration.Proofs.Data
import PointerMigration.Proofs.Decimal
import PointerMigration.Proofs.DeclarationOrder
import PointerMigration.Proofs.Directives
import PointerMigration.Proofs.ExclusionLists
import PointerMigration.Proofs.FileTree
import PointerMigration.Proofs.ForwardSearch
import PointerMigration.Proofs.HeaderLines
import PointerMigration.Proofs.Headers
import PointerMigration.Proofs.HunkReader
import PointerMigration.Proofs.Hunks
import PointerMigration.Proofs.JsonText
import PointerMigration.Proofs.LineDiff
import PointerMigration.Proofs.Lines
import PointerMigration.Proofs.Matches
import PointerMigration.Proofs.Merge
import PointerMigration.Proofs.MessagePackText
import PointerMigration.Proofs.MissingParts
import PointerMigration.Proofs.NewText
import PointerMigration.Proofs.NodeIds
import PointerMigration.Proofs.Overlap
import PointerMigration.Proofs.PassEdits
import PointerMigration.Proofs.Patching
import PointerMigration.Proofs.ProblemLists
import PointerMigration.Proofs.Qualifiers
import PointerMigration.Proofs.Record
import PointerMigration.Proofs.ReplacementOrder
import PointerMigration.Proofs.Resolving
import PointerMigration.Proofs.Rewriting
import PointerMigration.Proofs.RoundTrip
import PointerMigration.Proofs.RuneMotion
import PointerMigration.Proofs.Schedules
import PointerMigration.Proofs.Scopes
import PointerMigration.Proofs.SecondPass
import PointerMigration.Proofs.Shards
import PointerMigration.Proofs.ShownChanges
import PointerMigration.Proofs.StableSort
import PointerMigration.Proofs.Substitution
import PointerMigration.Proofs.Tree
import PointerMigration.Proofs.UnitData
import PointerMigration.Proofs.UnitFiles
import PointerMigration.Proofs.Uses
import PointerMigration.Proofs.Utf8
import PointerMigration.Proofs.Verdicts
import PointerMigration.Source.CType
import PointerMigration.Source.CompilationUnit
import PointerMigration.Source.Language
import PointerMigration.Source.Load
import PointerMigration.Source.Node
import PointerMigration.Source.Record
import PointerMigration.Source.UnitFile
import PointerMigration.Text
import PointerMigration.Text.Category
import PointerMigration.Text.CodeTable
import PointerMigration.Text.Decimal
import PointerMigration.Text.Integer
import PointerMigration.Text.LetterCase
import PointerMigration.Text.Quoted
import PointerMigration.Text.Rune
import PointerMigration.Text.Script
import PointerMigration.Toml.Document
import PointerMigration.Toml.Quoted
import PointerMigration.Toml.Reader
import PointerMigration.Toml.Scalar
import PointerMigration.Toml.Value
