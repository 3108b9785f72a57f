/-
**The report on a pull request.**

Issues are shown under the text they are in, texts in the order of their first issue.  Only the
first issues of a text are shown, and a line says how many more there are.

Main definitions:

* `LineLint.Report.grouped` — the issues of every text;
* `LineLint.Report.upTo` — the first items of a list, or all but the last ones;
* `LineLint.Report.pullRequest` — the report.
-/

import LineLint.Report.Human

set_option relaxedAutoImplicit false
set_option autoImplicit false

namespace LineLint.Report

/-- The number of issues of a text that are shown. -/
def previewLimit : Int := 3

/-- The texts of some issues, in the order of their first issue. -/
def sources (issues : List Issue) : List String :=
  (issues.map (fun issue => issue.source)).eraseDups

/-- The issues of every text, in the order of the first issue of the text. -/
def grouped (issues : List Issue) : List (String × List Issue) :=
  (sources issues).map (fun source =>
    (source, issues.filter (fun issue => issue.source == source)))

/-- The first `limit` items; a negative limit counts the items to leave out at the end. -/
def upTo {α : Type} (limit : Int) (items : List α) : List α :=
  match limit with
  | .ofNat count => items.take count
  | .negSucc count => items.take (items.length - (count + 1))

/-- The line of an issue. -/
def previewLine (issue : Issue) : Except UnknownSeverity String := do
  let severity ← issue.severity?
  return "   " ++ styled (colour severity) (issue.severity ++ ":") ++ " " ++ issue.message ++
    " (line " ++ issue.line.text ++ ")"

/-- The lines of some issues. -/
def previewLines : List Issue → Except UnknownSeverity (List String)
  | [] => .ok []
  | issue :: rest => do
    let first ← previewLine issue
    let others ← previewLines rest
    return first :: others

/-- The line that says how many issues are not shown. -/
def hiddenLines (hidden : Int) : List String :=
  if 0 < hidden then ["   ... " ++ Text.integer hidden ++ " more"] else []

/-- The lines of a text with its issues. -/
def groupLines (limit : Int) (source : String) (issues : List Issue) :
    Except UnknownSeverity (List String) := do
  let shown ← previewLines (upTo limit issues)
  return ["", "📄 " ++ source] ++ shown ++ hiddenLines (issues.length - limit)

/-- The lines of all texts. -/
def allGroupLines (limit : Int) :
    List (String × List Issue) → Except UnknownSeverity (List String)
  | [] => .ok []
  | (source, issues) :: rest => do
    let first ← groupLines limit source issues
    let others ← allGroupLines limit rest
    return first ++ others

/-- The report on a pull request with the given issues. -/
def pullRequest (issues : List Issue) (limit : Int := previewLimit) :
    Except UnknownSeverity String := do
  let groups ← allGroupLines limit (grouped issues)
  return Text.join "\n"
    ([styled .bold "🔍 Linting PR..."] ++ groups ++
      ["", styled .green ("✅ Found " ++ Text.natural issues.length ++ " lint issues")])

end LineLint.Report
