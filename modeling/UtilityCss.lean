import UtilityCss.Command.Arguments
import UtilityCss.Command.Basic
import UtilityCss.Command.Run
import UtilityCss.Css.Lexeme
import UtilityCss.Css.Token
import UtilityCss.Files.Change
import UtilityCss.Files.Fault
import UtilityCss.Files.Path
import UtilityCss.Files.Tree
import UtilityCss.Json.Reader
import UtilityCss.Json.Value
import UtilityCss.Main
import UtilityCss.OrderedMap
import UtilityCss.Pattern.Basic
import UtilityCss.Pattern.Reader
import UtilityCss.Project.Build
import UtilityCss.Project.Crawl
import UtilityCss.Project.Fault
import UtilityCss.Project.Session
import UtilityCss.Project.Watch
import UtilityCss.Project.Watcher
import UtilityCss.Proofs.Css.Boundary
import UtilityCss.Proofs.Css.Brace
import UtilityCss.Proofs.Css.Compaction
import UtilityCss.Proofs.Css.Declaration
import UtilityCss.Proofs.Css.Lexeme
import UtilityCss.Proofs.Css.Pending
import UtilityCss.Proofs.Css.Segment
import UtilityCss.Proofs.Css.Settle
import UtilityCss.Proofs.Css.Shape
import UtilityCss.Proofs.Css.Spacing
import UtilityCss.Proofs.Css.Verbatim
import UtilityCss.Proofs.Except
import UtilityCss.Proofs.Files.Change
import UtilityCss.Proofs.Files.Output
import UtilityCss.Proofs.Files.Path
import UtilityCss.Proofs.Files.Resolve
import UtilityCss.Proofs.Files.Sound
import UtilityCss.Proofs.Files.Walk
import UtilityCss.Proofs.Files.Written
import UtilityCss.Proofs.Files.Zero
import UtilityCss.Proofs.Named
import UtilityCss.Proofs.Pattern.Extension
import UtilityCss.Proofs.Project.Crawl
import UtilityCss.Proofs.Project.Feedback
import UtilityCss.Proofs.Project.FreshSheet
import UtilityCss.Proofs.Project.Listing
import UtilityCss.Proofs.Project.Mending
import UtilityCss.Proofs.Project.Mirror
import UtilityCss.Proofs.Project.Observation
import UtilityCss.Proofs.Project.Poll
import UtilityCss.Proofs.Project.Session
import UtilityCss.Proofs.Project.Tracking
import UtilityCss.Proofs.Project.Watch
import UtilityCss.Proofs.Project.Watcher
import UtilityCss.Proofs.Rule.Breadth
import UtilityCss.Proofs.Rule.Coloring
import UtilityCss.Proofs.Rule.Frame
import UtilityCss.Proofs.Rule.Ladder
import UtilityCss.Proofs.Rule.Numbering
import UtilityCss.Proofs.Rule.Recoloring
import UtilityCss.Proofs.Rule.Table
import UtilityCss.Proofs.Sheet.Applied
import UtilityCss.Proofs.Sheet.Base
import UtilityCss.Proofs.Sheet.Circular
import UtilityCss.Proofs.Sheet.ClassName
import UtilityCss.Proofs.Sheet.Course
import UtilityCss.Proofs.Sheet.Dependencies
import UtilityCss.Proofs.Sheet.Document
import UtilityCss.Proofs.Sheet.Failure
import UtilityCss.Proofs.Sheet.ImportStatement
import UtilityCss.Proofs.Sheet.Inlining
import UtilityCss.Proofs.Sheet.LayerGrammar
import UtilityCss.Proofs.Sheet.Ledger
import UtilityCss.Proofs.Sheet.Lockstep
import UtilityCss.Proofs.Sheet.NameList
import UtilityCss.Proofs.Sheet.Position
import UtilityCss.Proofs.Sheet.SecondPass
import UtilityCss.Proofs.Sheet.Step
import UtilityCss.Proofs.Sheet.Visits
import UtilityCss.Proofs.Text.Fingerprint
import UtilityCss.Proofs.Text.Sorted
import UtilityCss.Proofs.Text.Split
import UtilityCss.Proofs.Theme.Hexadecimal
import UtilityCss.Proofs.Theme.Merging
import UtilityCss.Proofs.Theme.Projection
import UtilityCss.Proofs.Utility.Blocks
import UtilityCss.Proofs.Utility.Breadth
import UtilityCss.Proofs.Utility.Buckets
import UtilityCss.Proofs.Utility.Canonical
import UtilityCss.Proofs.Utility.Declared
import UtilityCss.Proofs.Utility.History
import UtilityCss.Proofs.Utility.Merge
import UtilityCss.Proofs.Utility.Order
import UtilityCss.Proofs.Utility.Runs
import UtilityCss.Proofs.Utility.ScanOrder
import UtilityCss.Proofs.Utility.Selector
import UtilityCss.Proofs.Utility.Siblings
import UtilityCss.Proofs.Utility.Words
import UtilityCss.Rule.Basic
import UtilityCss.Rule.Catalogue
import UtilityCss.Rule.Generate
import UtilityCss.Rule.Palette
import UtilityCss.Rule.Scale
import UtilityCss.Rule.Shadow
import UtilityCss.Sheet.Apply
import UtilityCss.Sheet.Fault
import UtilityCss.Sheet.Files
import UtilityCss.Sheet.Import
import UtilityCss.Sheet.Pass
import UtilityCss.Sheet.Preflight
import UtilityCss.Sheet.Stylesheet
import UtilityCss.Text.Blank
import UtilityCss.Text.ControlSequence
import UtilityCss.Text.Decimal
import UtilityCss.Text.Digit
import UtilityCss.Text.Newlines
import UtilityCss.Text.Printable
import UtilityCss.Text.Quoted
import UtilityCss.Text.Ranges
import UtilityCss.Text.Real
import UtilityCss.Text.Sorted
import UtilityCss.Text.Split
import UtilityCss.Text.Utf8
import UtilityCss.Text.Word
import UtilityCss.Theme.Basic
import UtilityCss.Theme.Color
import UtilityCss.Theme.Compile
import UtilityCss.Theme.Defaults
import UtilityCss.Theme.Fields
import UtilityCss.Theme.Overrides
import UtilityCss.Utility.Basic
import UtilityCss.Utility.Candidate
import UtilityCss.Utility.Layer
import UtilityCss.Utility.Merge
