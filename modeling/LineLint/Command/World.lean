/-
**What a command sees and what it leaves.**

Main definitions:

* `LineLint.Command.World` — the files, the environment and the hosting service;
* `LineLint.Command.Complaint` — how a command ends that failed;
* `LineLint.Command.Outcome` — the exit code, the printed texts, the messages and the files.
-/

import LineLint.Catalogue
import LineLint.Command.Arguments
import LineLint.Crash
import LineLint.Remote
import LineLint.Report.Style
import LineLint.Settings
import LineLint.Traversal

set_option relaxedAutoImplicit false
set_option autoImplicit false

namespace LineLint.Command

/-- What a command sees. -/
structure World where
  tree : Tree
  /-- The working directory. -/
  directory : Location
  environment : Environment
  faults : Faults := {}
  /-- What comes back if the hosting service is asked. -/
  response : Remote.Response
  /-- How much of a body is read. -/
  limits : Json.Limits := {}
  /-- The rules that a run selects from. -/
  catalogue : List Rule := Catalogue.builtin
  /-- The characters that patterns can call by a name. -/
  names : String → Option Nat := fun _ => none
  /-- The order in which the workers move if a run has several. -/
  schedule : List Nat := []
  /-- What is shown as the help of the program, or of a command. -/
  help : Option Name → String := fun _ => ""

/-- How a command ends that failed. -/
inductive Complaint where
  /-- The options or arguments cannot be read, or there is no command. -/
  | usage
  /-- The value of an option is not possible. -/
  | badValue (option reason : String)
  /-- The command cannot do its work. -/
  | failure (reason : String)
  /-- The command met a failure that ends the run at once. -/
  | crash (cause : Crash)
  deriving DecidableEq, Repr

/-- A text on a line of its own, without control sequences. -/
def shown (text : String) : String := Report.plain text ++ "\n"

/-- What a command that failed shows at its end: a line, which is the same for all mistakes in
options and arguments.  What is shown at the end of a run that is ended at once is not up to the
command; it is given by `traceback`. -/
def Complaint.text (traceback : Crash → String) : Complaint → String
  | .usage => shown "Error: <usage>"
  | .badValue option reason => shown ("Error: Invalid value for " ++ option ++ ": " ++ reason)
  | .failure reason => shown ("Error: " ++ reason)
  | .crash cause => traceback cause

/-- The exit code after a complaint. -/
def Complaint.exitCode : Complaint → Nat
  | .usage | .badValue _ _ => 2
  | .failure _ | .crash _ => 1

/-- What a command leaves. -/
structure Outcome where
  exitCode : Nat
  /-- The texts that were printed, each with its control sequences. -/
  printed : List String := []
  /-- The messages about the work, whatever their level. -/
  log : List LogEntry := []
  /-- The least level of messages that are shown. -/
  level : Level := .warning
  complaint : Option Complaint := none
  tree : Tree
  /-- The request to the hosting service, if there was one. -/
  request : Option Remote.Request := none

namespace Outcome

/-- Everything that was printed. -/
def stdout (outcome : Outcome) : String := String.join (outcome.printed.map shown)

/-- The messages that are shown, each on a line. -/
def messages (outcome : Outcome) : List String :=
  (outcome.log.filter (LogEntry.passes outcome.level)).map (fun entry => entry.line ++ "\n")

/-- The messages that are shown, and how a command that failed ends. -/
def stderr (outcome : Outcome) (traceback : Crash → String) : String :=
  String.join (outcome.messages ++ outcome.complaint.toList.map (Complaint.text traceback))

/-- The files that were made or changed, given the tree before the command. -/
def written (outcome : Outcome) (before : Tree) : List (Location × List UInt8) :=
  before.changes outcome.tree

/-- An outcome that ends with a complaint. -/
def failing (tree : Tree) (complaint : Complaint) : Outcome :=
  { exitCode := complaint.exitCode, complaint := some complaint, tree := tree }

/-- An outcome that shows a text and does nothing else. -/
def showing (tree : Tree) (text : String) : Outcome :=
  { exitCode := 0, printed := [text], tree := tree }

end Outcome

end LineLint.Command
