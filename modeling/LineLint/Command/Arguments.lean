/-
**The commands and their arguments.**

Main definitions:

* `LineLint.Command.Root`, `LineLint.Command.readRoot` — the options before the command;
* `LineLint.Command.Name` — the commands;
* `LineLint.Command` — a command with its arguments;
* `LineLint.Command.asksForHelp`, `LineLint.Command.read` — the arguments of a command.
-/

import LineLint.Command.Options
import LineLint.Path
import LineLint.Text.Whole

set_option relaxedAutoImplicit false
set_option autoImplicit false

namespace LineLint

namespace Command

/-! ### Before the command -/

/-- The options before the command. -/
inductive RootKey where
  | help
  | version
  | verbose
  deriving DecidableEq, Repr

/-- The names of the options before the command. -/
def rootOptions : List (OptionSpec RootKey) :=
  [{ key := .help, long := "--help", takesValue := false },
   { key := .version, long := "--version", takesValue := false },
   { key := .verbose, long := "--verbose", short := some 'v', takesValue := false }]

/-- What stands before the command, and everything from the command on. -/
structure Root where
  help : Bool
  version : Bool
  verbose : Bool
  rest : List String
  deriving DecidableEq, Repr

/-- Reads what stands before the command. -/
def readRoot (arguments : List String) : Option Root :=
  (readArguments rootOptions false {} arguments).map (fun given =>
    ⟨given.has .help, given.has .version, given.has .verbose, given.arguments⟩)

/-- The commands. -/
inductive Name where
  | lint
  | complexity
  | pullRequest
  | rules
  deriving DecidableEq, Repr

/-- The command with a given name. -/
def Name.ofText? (text : String) : Option Name :=
  match text with
  | "lint" => some .lint
  | "complexity" => some .complexity
  | "pr" => some .pullRequest
  | "rules" => some .rules
  | _ => none

/-! ### The arguments of a command -/

/-- The arguments of a run over files. -/
structure LintArguments where
  paths : List Path
  recursive : Bool
  output : Option Path
  fix : Bool
  exclude : List String
  disable : List String
  jobs : Int
  deriving DecidableEq, Repr

/-- The arguments of a run over a pull request. -/
structure PullRequestArguments where
  owner : String
  repo : String
  number : Int
  output : Option Path
  disable : List String
  deriving DecidableEq, Repr

end Command

/-- A command with its arguments. -/
inductive Command where
  | lint (arguments : Command.LintArguments)
  /-- The path is kept as it was written. -/
  | complexity (path : String)
  | pullRequest (arguments : Command.PullRequestArguments)
  | rules (format : String)
  deriving DecidableEq, Repr

namespace Command

/-- The options of the commands. -/
inductive Key where
  | help
  | recursive
  | output
  | fix
  | exclude
  | disable
  | jobs
  | owner
  | repo
  | number
  | format
  deriving DecidableEq, Repr

/-- The names of the options of a command that are its own. -/
def ownOptions : Name → List (OptionSpec Key)
  | .lint =>
    [{ key := .recursive, long := "--recursive", short := some 'r', takesValue := false },
     { key := .output, long := "--output", short := some 'o' },
     { key := .fix, long := "--fix", takesValue := false },
     { key := .exclude, long := "--exclude" },
     { key := .disable, long := "--disable" },
     { key := .jobs, long := "--jobs" }]
  | .complexity => []
  | .pullRequest =>
    [{ key := .owner, long := "--owner", short := some 'o' },
     { key := .repo, long := "--repo", short := some 'r' },
     { key := .number, long := "--pr-number", short := some 'p' },
     { key := .output, long := "--output" },
     { key := .disable, long := "--disable" }]
  | .rules => [{ key := .format, long := "--format" }]

/-- The names of the options of a command. -/
def options (name : Name) : List (OptionSpec Key) :=
  { key := .help, long := "--help", takesValue := false } :: ownOptions name

/-- A whole number of at least one. -/
def positive? (text : String) : Option Int :=
  match Text.readWhole? text with
  | some value => if 1 ≤ value then some value else none
  | none => none

/-- The path of an option. -/
def outputOf (given : Given Key) : Option Path := (given.last? .output).map Path.ofText

/-- The command that options and arguments make, if none is missing, wrong or too many. -/
def ofGiven (name : Name) (given : Given Key) : Option Command :=
  match name, given.arguments with
  | .lint, first :: rest =>
    match positive? ((given.last? .jobs).getD "1") with
    | none => none
    | some jobs =>
      some (.lint
        { paths := (first :: rest).map Path.ofText
          recursive := given.has .recursive
          output := outputOf given
          fix := given.has .fix
          exclude := given.values .exclude
          disable := given.values .disable
          jobs := jobs })
  | .complexity, [path] => some (.complexity path)
  | .pullRequest, [] =>
    match given.last? .owner, given.last? .repo, (given.last? .number).bind positive? with
    | some owner, some repo, some number =>
      some (.pullRequest
        { owner := owner
          repo := repo
          number := number
          output := outputOf given
          disable := given.values .disable })
    | _, _, _ => none
  | .rules, [] => some (.rules ((given.last? .format).getD "human"))
  | _, _ => none

/-- The options and arguments of a command, if they can be told apart. -/
def given? (name : Name) (arguments : List String) : Option (Given Key) :=
  readArguments (options name) true {} arguments

/-- Whether a command is asked for its help.  Then nothing else has to be right. -/
def asksForHelp (name : Name) (arguments : List String) : Bool :=
  (given? name arguments).any (fun given => given.has .help)

/-- Reads the options and arguments of a command that is not asked for its help. -/
def read (name : Name) (arguments : List String) : Option Command :=
  ((given? name arguments).filter (fun given => !given.has .help)).bind (ofGiven name)

theorem asksForHelp_of_read {name : Name} {arguments : List String} {command : Command}
    (h : read name arguments = some command) : asksForHelp name arguments = false := by
  obtain ⟨given, hgiven, -⟩ := Option.bind_eq_some_iff.1 h
  obtain ⟨hgiven, hhelp⟩ := Option.filter_eq_some_iff.1 hgiven
  simpa [asksForHelp, hgiven] using hhelp

end Command

end LineLint
