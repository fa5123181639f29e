import PatternLint.Syntax.Lexer
import PatternLint.Syntax.Tree
import PatternLint.Syntax.Parser
import PatternLint.Syntax.Grammar.Basic
import PatternLint.Syntax.Grammar.Path
import PatternLint.Syntax.Grammar.Generics
import PatternLint.Syntax.Grammar.Type
import PatternLint.Syntax.Grammar.Pattern
import PatternLint.Syntax.Grammar.Operator
import PatternLint.Syntax.Grammar.Expr
import PatternLint.Syntax.Grammar.Statement
import PatternLint.Syntax.Grammar.Item
import PatternLint.Syntax.File
import PatternLint.Pattern.Glob
import PatternLint.Pattern.NodePattern
import PatternLint.Pattern.Search
import PatternLint.Path
import PatternLint.Checker
import PatternLint.Diagnostic
import PatternLint.FileTree
import PatternLint.Config
import PatternLint.Policy.Error
import PatternLint.Policy.ProjectPath
import PatternLint.Policy.Resolve
import PatternLint.Run
import PatternLint.Schedule.Traversal
import PatternLint.Source.Listing
import PatternLint.Source.Load
import PatternLint.Report.Json
import PatternLint.Report.Render
import PatternLint.Number.Binary64
import PatternLint.Number.Shortest
import PatternLint.Toml.Table
import PatternLint.Toml.Moment
import PatternLint.Toml.Document
import PatternLint.Config.Decode
import PatternLint.Config.Source
import PatternLint.Project
import PatternLint.Command.Arguments
import PatternLint.Command.Check
import PatternLint.Main
import PatternLint.Proofs.Path
import PatternLint.Proofs.Run.Budget
import PatternLint.Proofs.Schedule.Basic
import PatternLint.Proofs.Schedule.Plan
import PatternLint.Proofs.Schedule.Visibility
import PatternLint.Proofs.Schedule.Coverage
import PatternLint.Proofs.FileTree
import PatternLint.Proofs.SortedMap
import PatternLint.Proofs.Source.Walk
import PatternLint.Proofs.Source.Load
import PatternLint.Proofs.Source.Agreement
import PatternLint.Proofs.Policy.Resolve
import PatternLint.Proofs.Source.Ignoring
import PatternLint.Proofs.Schedule.Ignoring
import PatternLint.Proofs.Project.Ignoring
import PatternLint.Proofs.FirstProblem
import PatternLint.Proofs.Policy.ProjectPath
import PatternLint.Proofs.Policy.Validity
import PatternLint.Proofs.Following
import PatternLint.Proofs.Policy.Meaning
import PatternLint.Proofs.Policy.Restating
import PatternLint.Proofs.Policy.Result
import PatternLint.Proofs.Policy.Reordering
import PatternLint.Proofs.Policy.Withdrawing
import PatternLint.Proofs.Run.Withdrawing
import PatternLint.Proofs.Schedule.Order
import PatternLint.Proofs.Pattern.Grammar
import PatternLint.Proofs.Project.Restating
import PatternLint.Proofs.ListsOnce
import PatternLint.Proofs.Pattern.Search
import PatternLint.Proofs.Pattern.Alternation
import PatternLint.Proofs.Schedule.Failure
import PatternLint.Proofs.Source.Loadable
import PatternLint.Proofs.Source.Result
import PatternLint.Proofs.FileTree.Canonical
import PatternLint.Proofs.FileTree.Without
import PatternLint.Proofs.Source.Without
import PatternLint.Proofs.Policy.Alike
import PatternLint.Proofs.Config.Source
import PatternLint.Proofs.Command.Result
import PatternLint.Proofs.Text.Colons
import PatternLint.Proofs.Pattern.PathPattern
import PatternLint.Proofs.Report.Reader
import PatternLint.Proofs.Report.Agreement
import PatternLint.Proofs.Report.Lines
import PatternLint.Proofs.Toml.Document
import PatternLint.Proofs.Config.Decode
import PatternLint.Proofs.Config.Scalars
import PatternLint.Proofs.Report.Columns
import PatternLint.Proofs.Command.Capacity
import PatternLint.Proofs.Policy.Spelling
import PatternLint.Proofs.Syntax.Use
import PatternLint.Proofs.Pattern.Imports
import PatternLint.Proofs.Schedule.Numbering
