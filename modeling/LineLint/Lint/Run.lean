/-
**Linting texts.**

With one job, texts are scanned as they come, so the messages about reading them and those about
scanning them take turns.  With more jobs all texts are read first and then scanned by several
workers; the findings are the same.

Main definitions:

* `LineLint.Lint` — the state of a run;
* `LineLint.Lint.collect` — findings with the issues of one more text;
* `LineLint.Lint.inTurn`, `LineLint.Lint.together` — one job, and several;
* `LineLint.Lint.run` — linting with a number of jobs.
-/

import LineLint.Findings
import LineLint.Lint.Pool

set_option relaxedAutoImplicit false
set_option autoImplicit false

namespace LineLint

/-- The matcher, the findings and the messages of a run. -/
structure Lint where
  matcher : Matcher
  findings : Findings := {}
  log : List LogEntry := []

/-- The number of jobs is less than one. -/
structure BadJobs where
  jobs : Int
  deriving DecidableEq, Repr

/-- The message when the number of jobs is less than one. -/
def BadJobs.message (error : BadJobs) : String :=
  "jobs must be >= 1, got " ++ Text.integer error.jobs

namespace Lint

/-- The run with one more message. -/
def say (lint : Lint) (entry : LogEntry) : Lint := { lint with log := lint.log ++ [entry] }

/-- The message about the issues of a text. -/
def countNote (source : String) (issues : List Issue) : LogEntry :=
  ⟨.debug, .linting, source ++ ": " ++ Text.natural issues.length ++ " issues"⟩

/-- The run with the issues of one more text. -/
def collect (lint : Lint) (source : String) (issues : List Issue) : Lint :=
  { lint.say (countNote source issues) with
    findings := lint.findings.add issues (some source) }

/-- The run after one more event: a message is passed on, a text is scanned. -/
def take (lint : Lint) (event : Event) : Lint :=
  match event with
  | .note entry => lint.say entry
  | .found unit =>
    let (issues, matcher) := lint.matcher.scan unit.source unit.text
    { lint with matcher := matcher }.collect unit.source issues

/-- Scans texts as they come. -/
def inTurn (lint : Lint) (events : List Event) : Lint := events.foldl take lint

/-- Reads all texts and scans them with several workers, which move as the schedule says and then
until all are done. -/
def together (lint : Lint) (events : List Event) (schedule : List Nat := []) : Lint :=
  let pool := ((Pool.start lint.matcher (Event.units events)).run schedule).finish
  let read := (Event.entries events).foldl say { lint with matcher := pool.matcher }
  pool.results.foldl (fun lint result => lint.collect result.1.source result.2) read

/-- Lints with a number of jobs; several workers move as the schedule says. -/
def run (lint : Lint) (jobs : Int) (events : List Event) (schedule : List Nat := []) :
    Except BadJobs Lint :=
  if jobs < 1 then .error ⟨jobs⟩
  else if jobs = 1 then .ok (lint.inTurn events)
  else .ok (lint.together events schedule)

end Lint

end LineLint
