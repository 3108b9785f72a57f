import LineLint.Catalogue
import LineLint.Command.Arguments
import LineLint.Command.Options
import LineLint.Command.Run
import LineLint.Command.World
import LineLint.Complexity
import LineLint.Crash
import LineLint.Decimal.Binary64
import LineLint.Decimal.Shortest
import LineLint.Findings
import LineLint.Glob
import LineLint.Issue
import LineLint.Json.Display
import LineLint.Json.Parser
import LineLint.Json.Printer
import LineLint.Json.Value
import LineLint.Language
import LineLint.Lint.Pool
import LineLint.Lint.Run
import LineLint.Log
import LineLint.Main
import LineLint.Matcher
import LineLint.Patch
import LineLint.Path
import LineLint.Proofs.Text.Utf8
import LineLint.Pattern.Basic
import LineLint.Pattern.CharClass
import LineLint.Pattern.Escape
import LineLint.Pattern.Fault
import LineLint.Pattern.Matching
import LineLint.Pattern.Occurrence
import LineLint.Pattern.Reader
import LineLint.Pattern.Token
import LineLint.Pattern.Width
import LineLint.Payload
import LineLint.Remote
import LineLint.Report.Human
import LineLint.Report.PullRequest
import LineLint.Report.Style
import LineLint.Rule
import LineLint.RuleSet
import LineLint.Scan
import LineLint.Session
import LineLint.Settings
import LineLint.Severity
import LineLint.Source
import LineLint.Text.Blank
import LineLint.Text.Boundary
import LineLint.Text.Case
import LineLint.Text.Category
import LineLint.Text.Numeral
import LineLint.Text.Order
import LineLint.Text.Quoted
import LineLint.Text.Split
import LineLint.Text.Utf8
import LineLint.Text.Whole
import LineLint.Traversal
import LineLint.Tree.Basic
import LineLint.Tree.Lookup
import LineLint.Tree.Write
import LineLint.Proofs.Json.Grammar
import LineLint.Proofs.Json.Lexemes
import LineLint.Proofs.Json.Language
import LineLint.Proofs.Json.RoundTrip
import LineLint.Proofs.Json.Limits
import LineLint.Proofs.Payload.RoundTrip
import LineLint.Proofs.Payload.Acceptance
import LineLint.Proofs.Pattern.Advance
import LineLint.Proofs.Pattern.Occurrences
import LineLint.Proofs.Scan.Hits
import LineLint.Proofs.Pattern.Bounds
import LineLint.Proofs.Pattern.Matches
import LineLint.Proofs.Pattern.Exhaustive
import LineLint.Proofs.Rules.Compiled
import LineLint.Proofs.Scan.Completeness
import LineLint.Proofs.Tree.Alike
import LineLint.Proofs.Tree.Names
import LineLint.Proofs.Traversal.Walk
import LineLint.Proofs.Fallible
import LineLint.Proofs.Lint.Schedules
import LineLint.Proofs.Report.Severities
import LineLint.Proofs.Remote.Listing
import LineLint.Proofs.Session.AppendOnly
import LineLint.Proofs.Tree.Resolution
import LineLint.Proofs.Tree.Write
import LineLint.Proofs.Command.Outcome
import LineLint.Proofs.Command.LintFiles
import LineLint.Proofs.Command.PullRequest
import LineLint.Proofs.Rules.Selection
import LineLint.Proofs.Scan.Independence
import LineLint.Proofs.Session.Severities
import LineLint.Proofs.Traversal.Faults
import LineLint.Proofs.Traversal.Once
import LineLint.Proofs.Rules.Faults
import LineLint.Proofs.Scan.Joined
import LineLint.Proofs.Command.Status
import LineLint.Proofs.Command.Token
import LineLint.Proofs.Text.Pieces
import LineLint.Proofs.Text.Lossy
import LineLint.Proofs.Glob.Brackets
import LineLint.Proofs.Glob.Exclusion
import LineLint.Proofs.Catalogue.TrailingWhitespace
import LineLint.Proofs.Text.Runs
import LineLint.Proofs.Pattern.MaximalRuns
import LineLint.Proofs.Catalogue.LongLines
import LineLint.Proofs.Catalogue.LooseEquality
import LineLint.Proofs.Complexity
import LineLint.Proofs.Text.Case
import LineLint.Proofs.Language
import LineLint.Proofs.Report.PullRequest
import LineLint.Proofs.Settings.Disabled
import LineLint.Proofs.Lint.AnyOrder
import LineLint.Proofs.Tree.MakesWay
import LineLint.Proofs.Session.Saving
import LineLint.Proofs.Scan.Calls
import LineLint.Proofs.Pattern.Texts
import LineLint.Proofs.Report.Sequences
import LineLint.Proofs.Report.Plain
