import StoreLint.Command.Arguments
import StoreLint.Command.Help
import StoreLint.Command.Run
import StoreLint.Config.Basic
import StoreLint.Config.Decode
import StoreLint.Glob.Expand
import StoreLint.Glob.Pattern
import StoreLint.Grammar.Class
import StoreLint.Grammar.Expression
import StoreLint.Grammar.Function
import StoreLint.Grammar.Markup
import StoreLint.Grammar.Module
import StoreLint.Grammar.Name
import StoreLint.Grammar.Parser
import StoreLint.Grammar.Pattern
import StoreLint.Grammar.Scan
import StoreLint.Grammar.Statement
import StoreLint.Grammar.Token
import StoreLint.Grammar.Type
import StoreLint.Json.Reading
import StoreLint.Json.Value
import StoreLint.Main
import StoreLint.Project.Check
import StoreLint.Project.ConfigSearch
import StoreLint.Project.FileTree
import StoreLint.Project.Path
import StoreLint.Project.Scan
import StoreLint.Proofs.Command.Status
import StoreLint.Proofs.Config.Members
import StoreLint.Proofs.Config.Restated
import StoreLint.Proofs.Glob.Stars
import StoreLint.Proofs.Json.RoundTrip
import StoreLint.Proofs.Project.Ignores
import StoreLint.Proofs.Project.NearestConfig
import StoreLint.Proofs.Project.Relocation
import StoreLint.Proofs.Project.Runs
import StoreLint.Proofs.Project.Sources
import StoreLint.Proofs.Report.Caret
import StoreLint.Proofs.Report.Order
import StoreLint.Proofs.Report.SourceOrder
import StoreLint.Proofs.Rule.Anchors
import StoreLint.Proofs.Rule.ContextUses
import StoreLint.Proofs.Rule.Coverage
import StoreLint.Proofs.Rule.Defects
import StoreLint.Proofs.Rule.Documentation
import StoreLint.Proofs.Rule.Findings
import StoreLint.Proofs.Rule.Isolation
import StoreLint.Proofs.Rule.Locations
import StoreLint.Proofs.Rule.Selection
import StoreLint.Proofs.Rule.Shadowing
import StoreLint.Proofs.Rule.Shift
import StoreLint.Proofs.Rule.Wrappers
import StoreLint.Proofs.Scope.Arena
import StoreLint.Proofs.Scope.Bare
import StoreLint.Proofs.Scope.Binders
import StoreLint.Proofs.Scope.Compositional
import StoreLint.Proofs.Scope.Growth
import StoreLint.Proofs.Scope.Histories
import StoreLint.Proofs.Scope.Innermost
import StoreLint.Proofs.Scope.Inside
import StoreLint.Proofs.Scope.Lexical
import StoreLint.Proofs.Scope.Locals
import StoreLint.Proofs.Scope.Occurrences
import StoreLint.Proofs.Scope.Opening
import StoreLint.Proofs.Scope.Outline
import StoreLint.Proofs.Scope.Overtaking
import StoreLint.Proofs.Scope.Ranges
import StoreLint.Proofs.Scope.Reshape
import StoreLint.Proofs.Scope.Resolution
import StoreLint.Proofs.Scope.Returns
import StoreLint.Proofs.Scope.Shift
import StoreLint.Proofs.Scope.Visits
import StoreLint.Proofs.Source.CommentOrder
import StoreLint.Proofs.Source.LeadingRun
import StoreLint.Proofs.Source.Lines
import StoreLint.Proofs.Source.Mark
import StoreLint.Proofs.Source.Separators
import StoreLint.Proofs.Source.Shift
import StoreLint.Proofs.Store.Classification
import StoreLint.Proofs.Store.Extraction
import StoreLint.Proofs.Store.Origin
import StoreLint.Proofs.Text.Filling
import StoreLint.Proofs.Tree.Shift
import StoreLint.Report.Issue
import StoreLint.Report.Schema
import StoreLint.Report.Style
import StoreLint.Report.Text
import StoreLint.Rule.Basic
import StoreLint.Rule.Lint
import StoreLint.Rule.RequireDoc
import StoreLint.Rule.RootAssets
import StoreLint.Rule.RootCalls
import StoreLint.Scope.Build
import StoreLint.Scope.Resolve
import StoreLint.Scope.Tree
import StoreLint.Source.Comment
import StoreLint.Source.LeadingComments
import StoreLint.Source.Parsed
import StoreLint.Source.Place
import StoreLint.Source.Span
import StoreLint.Source.Text
import StoreLint.Store.Children
import StoreLint.Store.Entry
import StoreLint.Store.Section
import StoreLint.Text.Blank
import StoreLint.Text.CodeRange
import StoreLint.Text.Decimal
import StoreLint.Text.DisplayWidth
import StoreLint.Text.Emoji
import StoreLint.Text.Letter
import StoreLint.Text.LineWidth
import StoreLint.Text.Quoted
import StoreLint.Text.Template
import StoreLint.Tree.Node
import StoreLint.Tree.Pattern
import StoreLint.Tree.Walk
