/-
**Sessions.**

A session runs steps one after the other on one matcher, one collection of findings and one tree.  A
step that fails gives its error as the answer and leaves the findings as they were; the session
goes on.

Main definitions:

* `LineLint.Session`, `LineLint.Session.Step` — a session, and its steps;
* `LineLint.Session.Answer`, `LineLint.Session.Error` — what a step gives;
* `LineLint.Session.step` — one step;
* `LineLint.Session.run` — all steps, with their answers.
-/

import LineLint.Lint.Run
import LineLint.Patch
import LineLint.Payload
import LineLint.Report.PullRequest
import LineLint.Tree.Write

set_option relaxedAutoImplicit false
set_option autoImplicit false

namespace LineLint

/-- The state of a session. -/
structure Session where
  matcher : Matcher
  findings : Findings := {}
  tree : Tree := .directory []
  /-- The working directory. -/
  directory : Location := []

namespace Session

/-- A step of a session. -/
inductive Step where
  | add (issues : List Issue) (source : Option String)
  /-- Several workers move as the schedule says. -/
  | lint (units : List SourceUnit) (jobs : Int) (schedule : List Nat := [])
  | patches (files : List ChangedFile)
  /-- A saved report is read within the limits. -/
  | load (bytes : List UInt8) (limits : Json.Limits := {})
  | scan (source text : String) (language : Option String)
  | reload
  | summary
  | issues
  | exit
  | fixable
  | render
  | renderPullRequest
  | serialize
  | write (path : Path)

/-- The answer of a step. -/
inductive Answer where
  /-- The numbers of scanned texts and of issues so far. -/
  | counts (scanned issues : Nat)
  | issues (issues : List Issue)
  | hits (issues : List Issue)
  | truth (value : Bool)
  | summary (summary : Summary)
  | exit (hasErrors : Bool) (code : Nat)
  | number (value : Nat)
  | text (text : String)
  | saved (path content : String)
  deriving Repr

/-- Why a step fails. -/
inductive Error where
  | jobs (error : BadJobs)
  | payload (error : Payload.Error) (bytes : List UInt8)
  | severity (error : UnknownSeverity)
  | write (error : Tree.WriteError)
  deriving Repr

/-- The message when a step fails. -/
def Error.message : Error → String
  | .jobs error => error.message
  | .payload error bytes => error.message bytes
  | .severity error => error.message
  | .write error => error.message

/-- The counts of a session. -/
def counts (session : Session) : Answer :=
  .counts session.findings.unitsScanned session.findings.issues.length

/-- Lints events into the findings of a session. -/
def lintEvents (session : Session) (jobs : Int) (events : List Event)
    (schedule : List Nat := []) : Except Error Answer × Session :=
  let start : Lint := { matcher := session.matcher, findings := session.findings }
  match start.run jobs events schedule with
  | .error error => (.error (.jobs error), session)
  | .ok lint =>
    let after := { session with matcher := lint.matcher, findings := lint.findings }
    (.ok after.counts, after)

/-- The answer of a step that may meet an unknown severity. -/
def known {α : Type} (result : Except UnknownSeverity α) (answer : α → Answer) :
    Except Error Answer :=
  match result with
  | .ok value => .ok (answer value)
  | .error error => .error (.severity error)

/-- Whether the findings can be saved and read back as they are. -/
def reloads (session : Session) : Except Error Answer :=
  let bytes := Payload.write session.findings.issues
  match Payload.read bytes with
  | .ok issues => .ok (.truth (decide (issues = session.findings.issues)))
  | .error error => .error (.payload error bytes)

/-- Whether there are errors, and the exit code. -/
def ending (session : Session) : Except UnknownSeverity (Bool × Nat) := do
  let hasErrors ← session.findings.hasErrors
  let code ← session.findings.exitCode
  return (hasErrors, code)

/-- Saves the findings to a file of the tree. -/
def save (session : Session) (path : Path) : Except Error Answer × Session :=
  match session.tree.write session.directory path (Payload.write session.findings.issues) with
  | .error failure => (.error (.write failure.error), { session with tree := failure.tree })
  | .ok written =>
    (.ok (.saved written.path (Payload.text session.findings.issues)),
      { session with tree := written.tree })

/-- One step of a session. -/
def step (session : Session) : Step → Except Error Answer × Session
  | .add issues source =>
    let after := { session with findings := session.findings.add issues source }
    (.ok after.counts, after)
  | .lint units jobs schedule => session.lintEvents jobs (units.map .found) schedule
  | .patches files => session.lintEvents 1 (ChangedFile.events files)
  | .load bytes limits =>
    match Payload.read bytes limits with
    | .error error => (.error (.payload error bytes), session)
    | .ok issues =>
      let after := { session with findings := session.findings.add issues none }
      (.ok after.counts, after)
  | .scan source text language =>
    let (issues, matcher) := session.matcher.scan source text language
    (.ok (.hits issues), { session with matcher := matcher })
  | .reload => (session.reloads, session)
  | .summary => (known session.findings.summary .summary, session)
  | .issues => (.ok (.issues session.findings.issues), session)
  | .exit => (known session.ending (fun found => .exit found.1 found.2), session)
  | .fixable => (.ok (.number session.findings.fixableCount), session)
  | .render => (known (Report.human session.findings) .text, session)
  | .renderPullRequest => (known (Report.pullRequest session.findings.issues) .text, session)
  | .serialize => (.ok (.text (Payload.text session.findings.issues)), session)
  | .write path => session.save path

/-- The answers of all steps, and the session after them. -/
def run (session : Session) : List Step → List (Except Error Answer) × Session
  | [] => ([], session)
  | first :: rest =>
    let (answer, after) := session.step first
    let (answers, last) := after.run rest
    (answer :: answers, last)

end Session

end LineLint
