/-
**Findings: the issues of all texts of a run.**

Findings only grow.  They count the texts that were scanned and the issues in the order in which
they came; a summary counts the issues of each severity, and fails on a severity that has no known
name.

Main definitions:

* `LineLint.Findings`, `LineLint.Findings.add` — findings, and how they grow;
* `LineLint.Summary`, `LineLint.Findings.summary` — the counts;
* `LineLint.Findings.exitCode` — one if some issue is an error, else zero.

Main results:

* `LineLint.Findings.issues_add`, `LineLint.Findings.scanned_add` — what adding does to the
  issues and to the texts.
-/

import LineLint.Issue
import LineLint.Severity
import LineLint.Text.Quoted

set_option relaxedAutoImplicit false
set_option autoImplicit false

namespace LineLint

/-- The severity of an issue has no known name. -/
structure UnknownSeverity where
  name : String
  deriving DecidableEq, Repr

/-- The name that is not known, in quotes. -/
def UnknownSeverity.message (error : UnknownSeverity) : String := Text.quoted error.name

/-- The severity of an issue. -/
def Issue.severity? (issue : Issue) : Except UnknownSeverity Severity :=
  match Severity.ofName? issue.severity with
  | some severity => .ok severity
  | none => .error ⟨issue.severity⟩

/-- The issues and the scanned texts of a run. -/
@[ext]
structure Findings where
  issues : List Issue := []
  /-- The names of the texts that were scanned. -/
  scanned : List String := []
  deriving DecidableEq, Repr

/-- The counts of findings. -/
structure Summary where
  errors : Nat
  warnings : Nat
  infos : Nat
  total : Nat
  unitsScanned : Nat
  deriving DecidableEq, Repr

/-- The count for a severity. -/
def Summary.count (summary : Summary) : Severity → Nat
  | .error => summary.errors
  | .warning => summary.warnings
  | .info => summary.infos

namespace Findings

/-- Findings with more issues; a name also counts one scanned text. -/
def add (findings : Findings) (issues : List Issue) (source : Option String) : Findings :=
  { issues := findings.issues ++ issues
    scanned := findings.scanned ++ source.toList }

/-- The number of scanned texts. -/
def unitsScanned (findings : Findings) : Nat := findings.scanned.length

@[simp] theorem issues_add (findings : Findings) (issues : List Issue) (source : Option String) :
    (findings.add issues source).issues = findings.issues ++ issues := rfl

@[simp] theorem scanned_add (findings : Findings) (issues : List Issue) (source : Option String) :
    (findings.add issues source).scanned = findings.scanned ++ source.toList := rfl

/-- The severities of some issues, if all of them are known. -/
def severities : List Issue → Except UnknownSeverity (List Severity)
  | [] => .ok []
  | issue :: rest => do
    let first ← issue.severity?
    let others ← severities rest
    return first :: others

/-- The counts of findings. -/
def summary (findings : Findings) : Except UnknownSeverity Summary := do
  let found ← severities findings.issues
  .ok
    { errors := found.count .error
      warnings := found.count .warning
      infos := found.count .info
      total := findings.issues.length
      unitsScanned := findings.unitsScanned }

/-- Whether some issue is an error. -/
def hasErrors (findings : Findings) : Except UnknownSeverity Bool := do
  let summary ← findings.summary
  return decide (0 < summary.errors)

/-- One if some issue is an error, else zero. -/
def exitCode (findings : Findings) : Except UnknownSeverity Nat := do
  let hasErrors ← findings.hasErrors
  return if hasErrors then 1 else 0

/-- The number of issues that can be fixed. -/
def fixableCount (findings : Findings) : Nat :=
  (findings.issues.filter (fun issue => issue.fixable)).length

end Findings

end LineLint
