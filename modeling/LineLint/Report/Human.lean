/-
**The report for people.**

Main definitions:

* `LineLint.Report.icon`, `LineLint.Report.colour`, `LineLint.Report.label` — how a severity shows;
* `LineLint.Report.human` — the report of findings.
-/

import LineLint.Findings
import LineLint.Report.Style
import LineLint.Text.Split

set_option relaxedAutoImplicit false
set_option autoImplicit false

namespace LineLint.Report

/-- The sign of a severity. -/
def icon : Severity → String
  | .error => "❌"
  | .warning => "⚠️"
  | .info => "ℹ️"

/-- The colour of a severity. -/
def colour : Severity → Style
  | .error => .red
  | .warning => .yellow
  | .info => .blue

/-- The word for the issues of a severity. -/
def label : Severity → String
  | .error => "Errors"
  | .warning => "Warnings"
  | .info => "Info"

/-- The bar above and below a title. -/
def bar : String := String.ofList (List.replicate 60 '═')

/-- The lines of a title. -/
def title (text : String) : List String := [bar, styled .bold text, bar]

/-- The lines of an issue. -/
def issueLines (issue : Issue) : Except UnknownSeverity (List String) := do
  let severity ← issue.severity?
  let header := icon severity ++ " [" ++ issue.severity ++ "] " ++ issue.source ++ ":" ++
    issue.line.text
  return [styled (colour severity) header, "   " ++ issue.message, ""]

/-- The lines of some issues. -/
def allIssueLines : List Issue → Except UnknownSeverity (List String)
  | [] => .ok []
  | issue :: rest => do
    let first ← issueLines issue
    let others ← allIssueLines rest
    return first ++ others

/-- The lines above all issues. -/
def banner (summary : Summary) : List String :=
  [styled .bold "🔍 Code Quality Linter", "",
   "Linted " ++ Text.natural summary.unitsScanned ++ " files",
   "Found " ++ Text.natural summary.total ++ " issues", ""]

/-- The lines of the totals. -/
def totals (summary : Summary) : List String :=
  Severity.all.map (fun severity =>
    label severity ++ ": " ++ Text.natural (summary.count severity))

/-- The report of findings. -/
def human (findings : Findings) : Except UnknownSeverity String := do
  let summary ← findings.summary
  if findings.issues.isEmpty then
    return Text.join "\n" (banner summary ++ [styled .green "✅ No issues found!"])
  else
    let issues ← allIssueLines findings.issues
    return Text.join "\n"
      (banner summary ++ title "LINT RESULTS" ++ issues ++ title "SUMMARY" ++ totals summary)

end LineLint.Report
