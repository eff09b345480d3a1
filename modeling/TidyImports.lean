import TidyImports.Config.Alias
import TidyImports.Config.Load
import TidyImports.Config.Reading
import TidyImports.Document.Blocks
import TidyImports.Document.Kind
import TidyImports.Edit.Patch
import TidyImports.Edit.Span
import TidyImports.FileTree
import TidyImports.Import.Basic
import TidyImports.Import.Comments
import TidyImports.Import.Merge
import TidyImports.Import.Order
import TidyImports.Import.Organize
import TidyImports.Import.Reading
import TidyImports.Import.Render
import TidyImports.Import.Trivia
import TidyImports.Json.Comments
import TidyImports.Json.Number
import TidyImports.Json.Value
import TidyImports.Log
import TidyImports.Organizer.Host
import TidyImports.Organizer.Pipeline
import TidyImports.Organizer.Service
import TidyImports.Organizer.Session
import TidyImports.Path
import TidyImports.Path.Extension
import TidyImports.Proofs.Config.Capture
import TidyImports.Proofs.Config.Chains
import TidyImports.Proofs.Config.Inheritance
import TidyImports.Proofs.Config.Substitution
import TidyImports.Proofs.Document.Elements
import TidyImports.Proofs.Document.Placement
import TidyImports.Proofs.Edit.Accepted
import TidyImports.Proofs.Edit.Conflicts
import TidyImports.Proofs.Edit.Regions
import TidyImports.Proofs.Edit.Reordering
import TidyImports.Proofs.Edit.Sequential
import TidyImports.Proofs.Edit.Weaving
import TidyImports.Proofs.Import.Attached
import TidyImports.Proofs.Import.Collected
import TidyImports.Proofs.Import.Comparing
import TidyImports.Proofs.Import.Divided
import TidyImports.Proofs.Import.Gathering
import TidyImports.Proofs.Import.Groups
import TidyImports.Proofs.Import.Layout
import TidyImports.Proofs.Import.Loose
import TidyImports.Proofs.Import.Merging
import TidyImports.Proofs.Import.Ordering
import TidyImports.Proofs.Import.Parted
import TidyImports.Proofs.Import.Partition
import TidyImports.Proofs.Import.Reattached
import TidyImports.Proofs.Import.Said
import TidyImports.Proofs.Import.Scanned
import TidyImports.Proofs.Import.Settled
import TidyImports.Proofs.Import.Stretches
import TidyImports.Proofs.Import.Trivia
import TidyImports.Proofs.Import.Written
import TidyImports.Proofs.Json.Comments
import TidyImports.Proofs.Json.Documents
import TidyImports.Proofs.Json.LineFeeds
import TidyImports.Proofs.Json.Reading
import TidyImports.Proofs.Organizer.FixedPoint
import TidyImports.Proofs.Organizer.Intervals
import TidyImports.Proofs.Organizer.Loading
import TidyImports.Proofs.Organizer.OutsideImports
import TidyImports.Proofs.Organizer.Patches
import TidyImports.Proofs.Organizer.Races
import TidyImports.Proofs.Organizer.Schedules
import TidyImports.Proofs.Organizer.Sessions
import TidyImports.Proofs.Organizer.Surroundings
import TidyImports.Proofs.Organizer.Transparency
import TidyImports.Proofs.Organizer.World
import TidyImports.Proofs.Path.Below
import TidyImports.Proofs.Path.Canonical
import TidyImports.Proofs.Path.Containment
import TidyImports.Proofs.Path.Folding
import TidyImports.Proofs.Path.Letters
import TidyImports.Proofs.Path.Operations
import TidyImports.Proofs.Path.Resolution
import TidyImports.Proofs.Script.Clauses
import TidyImports.Proofs.Script.Gaps
import TidyImports.Proofs.Script.Lexemes
import TidyImports.Proofs.Script.Listed
import TidyImports.Proofs.Script.Literals
import TidyImports.Proofs.Script.Passing
import TidyImports.Proofs.Script.Phrases
import TidyImports.Proofs.Script.Placement
import TidyImports.Proofs.Script.Rereading
import TidyImports.Proofs.Script.Runs
import TidyImports.Proofs.Script.Spacing
import TidyImports.Proofs.Script.Specifiers
import TidyImports.Proofs.Script.Wordings
import TidyImports.Proofs.Settings.Agreement
import TidyImports.Proofs.Specifier.Interiors
import TidyImports.Proofs.Specifier.Literals
import TidyImports.Proofs.Specifier.Placement
import TidyImports.Proofs.Specifier.Policy
import TidyImports.Proofs.Specifier.Replaced
import TidyImports.Proofs.Text.Pieces
import TidyImports.Script.Grammar.Basic
import TidyImports.Script.Grammar.Bindings
import TidyImports.Script.Grammar.Declarations
import TidyImports.Script.Grammar.Elements
import TidyImports.Script.Grammar.Expressions
import TidyImports.Script.Grammar.Functions
import TidyImports.Script.Grammar.Modules
import TidyImports.Script.Grammar.Statements
import TidyImports.Script.Grammar.Types
import TidyImports.Script.Literal
import TidyImports.Script.Module
import TidyImports.Script.Outline
import TidyImports.Script.Program
import TidyImports.Script.Token
import TidyImports.Settings.Host
import TidyImports.Settings.Options
import TidyImports.Settings.Reading
import TidyImports.Specifier.Basic
import TidyImports.Specifier.Collect
import TidyImports.Specifier.Replacement
import TidyImports.Text.Basic
import TidyImports.Text.Characters
import TidyImports.Text.Identifier
import TidyImports.Text.Lowercase
import TidyImports.Text.Quoted
