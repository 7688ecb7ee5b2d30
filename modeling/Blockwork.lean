import Blockwork.Block.Basic
import Blockwork.Block.Definition
import Blockwork.Block.Kind
import Blockwork.Block.Label
import Blockwork.Block.Templates
import Blockwork.Board
import Blockwork.Breakdown
import Blockwork.Bundle.Reader
import Blockwork.Bundle.Record
import Blockwork.Code.Generate
import Blockwork.Code.Language
import Blockwork.Code.Placeholder
import Blockwork.Code.Quotes
import Blockwork.Decimal.Binary
import Blockwork.Decimal.Extended
import Blockwork.Decimal.Numeral
import Blockwork.Decimal.Shortest
import Blockwork.Drop.Session
import Blockwork.Drop.Target
import Blockwork.Fault
import Blockwork.Geometry.Basic
import Blockwork.Geometry.Estimated
import Blockwork.Geometry.Fixed
import Blockwork.Geometry.Rect
import Blockwork.Geometry.Viewport
import Blockwork.Json.Digits
import Blockwork.Json.Display
import Blockwork.Json.Encoding
import Blockwork.Json.Lexer
import Blockwork.Json.Number
import Blockwork.Json.Reader
import Blockwork.Json.Value
import Blockwork.Json.Writer
import Blockwork.Palette.Basic
import Blockwork.Palette.Search
import Blockwork.Palette.Standard
import Blockwork.Proofs.Block.LabelInputs
import Blockwork.Proofs.Block.LabelParts
import Blockwork.Proofs.Board.AttachDetach
import Blockwork.Proofs.Board.AttachIff
import Blockwork.Proofs.Board.Changes
import Blockwork.Proofs.Board.FreeBlocks
import Blockwork.Proofs.Board.Move
import Blockwork.Proofs.Board.NoticeChains
import Blockwork.Proofs.Board.Notices
import Blockwork.Proofs.Board.RemovalCascade
import Blockwork.Proofs.Bundle.BreaksBy
import Blockwork.Proofs.Bundle.MakeBlock
import Blockwork.Proofs.Bundle.ReadBreaks
import Blockwork.Proofs.Bundle.RecordBreaks
import Blockwork.Proofs.Bundle.RecordsRead
import Blockwork.Proofs.Bundle.Recovered
import Blockwork.Proofs.Bundle.Relink
import Blockwork.Proofs.Bundle.RelinkForest
import Blockwork.Proofs.Bundle.SnapshotRoundTrip
import Blockwork.Proofs.Bundle.SnapshotText
import Blockwork.Proofs.Code.Calls
import Blockwork.Proofs.Code.Dependence
import Blockwork.Proofs.Code.DropQuotes
import Blockwork.Proofs.Code.EarlierRoots
import Blockwork.Proofs.Code.FillAtOnce
import Blockwork.Proofs.Code.Generable
import Blockwork.Proofs.Code.HangingText
import Blockwork.Proofs.Code.HungPlaceholders
import Blockwork.Proofs.Code.Indentation
import Blockwork.Proofs.Code.InferContainerVar
import Blockwork.Proofs.Code.LiteralInfluence
import Blockwork.Proofs.Code.Margins
import Blockwork.Proofs.Code.NestedBlockCode
import Blockwork.Proofs.Code.PercentNames
import Blockwork.Proofs.Code.VisitedBlocks
import Blockwork.Proofs.Decimal.DoubleText
import Blockwork.Proofs.Decimal.Rounding
import Blockwork.Proofs.Drop.Finish
import Blockwork.Proofs.Drop.PickUp
import Blockwork.Proofs.Drop.ResolveTarget
import Blockwork.Proofs.Drop.TargetAdmitted
import Blockwork.Proofs.Geometry.Coherence
import Blockwork.Proofs.Geometry.DetachInPlace
import Blockwork.Proofs.Geometry.EstimatedAnswers
import Blockwork.Proofs.Geometry.Memory
import Blockwork.Proofs.Geometry.NestedFit
import Blockwork.Proofs.Geometry.Positions
import Blockwork.Proofs.Geometry.PrunedQueries
import Blockwork.Proofs.Geometry.Queries
import Blockwork.Proofs.Geometry.Sizes
import Blockwork.Proofs.Json.Numerals
import Blockwork.Proofs.Json.ParseWritten
import Blockwork.Proofs.Json.StringSpelling
import Blockwork.Proofs.Json.Writable
import Blockwork.Proofs.Json.WrittenTokens
import Blockwork.Proofs.Lists
import Blockwork.Proofs.Palette.SearchRanking
import Blockwork.Proofs.Registry.Ancestors
import Blockwork.Proofs.Registry.AttachRules
import Blockwork.Proofs.Registry.BodyNames
import Blockwork.Proofs.Registry.DescendantOrder
import Blockwork.Proofs.Registry.Descendants
import Blockwork.Proofs.Registry.Edit
import Blockwork.Proofs.Registry.Link
import Blockwork.Proofs.Registry.Lookup
import Blockwork.Proofs.Registry.Pruned
import Blockwork.Proofs.Registry.Removal
import Blockwork.Proofs.Registry.Unlink
import Blockwork.Proofs.Registry.Validation
import Blockwork.Proofs.Registry.WalkTermination
import Blockwork.Proofs.Registry.WellFormed
import Blockwork.Proofs.Steps
import Blockwork.Proofs.Web.Admission
import Blockwork.Proofs.Web.PostStatus
import Blockwork.Proofs.Web.UsableWorkspace
import Blockwork.Proofs.Workspace.ActiveDrag
import Blockwork.Proofs.Workspace.BoardChanges
import Blockwork.Proofs.Workspace.Clear
import Blockwork.Proofs.Workspace.FaultMessages
import Blockwork.Proofs.Workspace.Frames
import Blockwork.Proofs.Workspace.GenerateExport
import Blockwork.Proofs.Workspace.ImportBundle
import Blockwork.Proofs.Workspace.ImportedLiterals
import Blockwork.Proofs.Workspace.PaletteValid
import Blockwork.Proofs.Workspace.Reachable
import Blockwork.Proofs.Workspace.SaveLoad
import Blockwork.Proofs.Workspace.UnknownLanguage
import Blockwork.Registry
import Blockwork.Registry.Attach
import Blockwork.Registry.Validate
import Blockwork.Registry.Walk
import Blockwork.Store.Basic
import Blockwork.Table
import Blockwork.Text.Pattern
import Blockwork.Text.Quoted
import Blockwork.Text.Utf8
import Blockwork.Unicode.Blank
import Blockwork.Unicode.Digit
import Blockwork.Unicode.Lowercase
import Blockwork.Unicode.Printable
import Blockwork.Unicode.Ranges
import Blockwork.Unicode.Word
import Blockwork.Web.Address
import Blockwork.Web.Handler
import Blockwork.Web.Request
import Blockwork.Web.Route
import Blockwork.Workspace.Basic
import Blockwork.Workspace.Overview
import Blockwork.Workspace.Settings
import Blockwork.Workspace.Share
