/-
**Running a command.**

What stands before the command is read first; then the settings are loaded, and only then the
arguments of the command are read.  Whoever asks for help, before the command or behind it, gets it
at that point, and nothing else is done.  A command prints its report before it saves anything, and
ends with exit code one if it found an error, or if it could not do its work.

Main definitions:

* `LineLint.Command.selectRules` — the rules of a run;
* `LineLint.Command.lintFiles`, `LineLint.Command.lintPullRequest` — linting;
* `LineLint.Command.measure`, `LineLint.Command.listRules` — complexity, and the list of rules;
* `LineLint.Command.run` — running the program with its arguments.
-/

import LineLint.Command.Arguments
import LineLint.Command.World
import LineLint.Complexity
import LineLint.Json.Printer
import LineLint.Lint.Run
import LineLint.Payload
import LineLint.Report.PullRequest
import LineLint.Tree.Write

set_option relaxedAutoImplicit false
set_option autoImplicit false

namespace LineLint.Command

/-! ### Rules and reports -/

/-- The message about a new rule set. -/
def builtNote (set : RuleSet) : LogEntry :=
  ⟨.debug, .rules,
    "Built rule set with " ++ Text.natural set.size ++ " rules: " ++ Text.join ", " set.ids⟩

/-- How a run ends that has no rules. -/
def rulesComplaint : RuleError → Complaint
  | .crash cause => .crash cause
  | error => .badValue "--disable" error.message

/-- The rules of a run: those of the catalogue without the disabled ones. -/
def selectRules (world : World) (settings : Settings) (disable : List String) :
    Except Complaint RuleSet :=
  match RuleSet.select world.catalogue { disabled := settings.disabled ++ disable } world.names with
  | .ok set => .ok set
  | .error error => .error (rulesComplaint error)

/-- How a run ends that cannot save its findings to a path. -/
def saveComplaint (path : Path) : Tree.WriteError → Complaint
  | .crash cause => .crash cause
  | error => .failure ("Cannot write results to " ++ path.text ++ ": " ++ error.message)

/-- Ends a run that has printed its reports: saves the findings if a file is given, and exits with
the code of the findings. -/
def conclude (world : World) (finished : Lint) (printed : List String) (output : Option Path) :
    Outcome :=
  let code := (finished.findings.exitCode.toOption).getD 1
  match output with
  | none => { exitCode := code, printed := printed, log := finished.log, tree := world.tree }
  | some path =>
    match world.tree.write world.directory path (Payload.write finished.findings.issues) with
    | .ok written =>
      { exitCode := code
        printed := printed ++ ["\n📁 Results saved to: " ++ written.path]
        log := finished.log
        tree := written.tree }
    | .error failure =>
      { exitCode := 1
        printed := printed
        log := finished.log
        complaint := some (saveComplaint path failure.error)
        tree := failure.tree }

/-! ### The commands -/

/-- The line about issues that could be fixed. -/
def fixLine (findings : Findings) : String :=
  "\n🔧 " ++ Text.natural findings.fixableCount ++ " of " ++
    Text.natural findings.issues.length ++
    " issues are auto-fixable; no files were modified."

/-- The message before files are linted. -/
def lintingNote (arguments : LintArguments) (set : RuleSet) : LogEntry :=
  ⟨.debug, .command,
    "Linting " ++ Text.natural arguments.paths.length ++ " paths with " ++
      Text.natural set.size ++ " rules"⟩

/-- Lints files. -/
def lintFiles (world : World) (settings : Settings) (arguments : LintArguments) : Outcome :=
  match selectRules world settings arguments.disable with
  | .error complaint => .failing world.tree complaint
  | .ok set =>
    let traversal : Traversal := ⟨world.tree, world.directory, arguments.exclude, world.faults⟩
    let events := traversal.fromPaths arguments.recursive arguments.paths
    let start : Lint :=
      { matcher := { rules := set }, log := [builtNote set, lintingNote arguments set] }
    match start.run arguments.jobs events world.schedule with
    | .error error => .failing world.tree (.failure error.message)
    | .ok finished =>
      match Report.human finished.findings with
      | .error error => .failing world.tree (.failure error.message)
      | .ok report =>
        let printed := if arguments.fix then [report, fixLine finished.findings] else [report]
        conclude world finished printed arguments.output

/-- The pull request that the arguments name. -/
def PullRequestArguments.pull (arguments : PullRequestArguments) : Remote.PullRequest :=
  ⟨arguments.owner, arguments.repo, arguments.number⟩

/-- How a run ends that has no listing. -/
def listComplaint : Remote.Error → Complaint
  | .crash cause => .crash cause
  | error => .failure error.message

/-- Lints the patches of a pull request. -/
def lintPullRequest (world : World) (settings : Settings) (arguments : PullRequestArguments) :
    Outcome :=
  match settings.requireToken with
  | .error error => .failing world.tree (.failure error.message)
  | .ok token =>
    match selectRules world settings arguments.disable with
    | .error complaint => .failing world.tree complaint
    | .ok set =>
      let request := Remote.request token settings.apiUrl arguments.pull
      match Remote.list request arguments.pull world.response world.limits with
      | (.error error, log) =>
        { Outcome.failing world.tree (listComplaint error) with
          log := builtNote set :: log
          request := some request }
      | (.ok files, log) =>
        let start : Lint := { matcher := { rules := set }, log := builtNote set :: log }
        let finished := start.inTurn (ChangedFile.events files)
        match Report.pullRequest finished.findings.issues with
        | .error error =>
          { Outcome.failing world.tree (.failure error.message) with request := some request }
        | .ok report =>
          { conclude world finished [report] arguments.output with request := some request }

/-- The colour of a level of complexity. -/
def levelColour : Complexity.Level → Report.Style
  | .low => .green
  | .moderate => .yellow
  | .high => .red

/-- The sign of a level of complexity. -/
def levelIcon : Complexity.Level → String
  | .low => "✅"
  | .moderate => "⚠️"
  | .high => "❌"

/-- Whether a path, as it is written, can only name a directory. -/
def namesDirectory (written : String) : Bool :=
  match (Text.splitAt '/' written.toList).getLast? with
  | some part => part == [] || part == ['.']
  | none => true

/-- The file that a path, as it is written, names. -/
def existingFile? (world : World) (written : String) : Option (List UInt8) :=
  if namesDirectory written || decide (4096 ≤ written.utf8ByteSize) then none
  else
    match world.tree.lookup world.directory (Path.ofText written) with
    | .present _ (.file content) => some content
    | _ => none

/-- Measures the complexity of a file. -/
def measure (world : World) (written : String) : Outcome :=
  let path := Path.ofText written
  match existingFile? world written with
  | none => .failing world.tree .usage
  | some content =>
    if world.faults.read.contains path.text then
      .failing world.tree
        (.failure ("Cannot read " ++ path.text ++ ": " ++ Traversal.denied path))
    else
      let value := Complexity.score (Text.Utf8.decodeLossy content)
      let level := Complexity.classify value
      { exitCode := 0
        printed :=
          ["\n📊 Complexity: " ++ Text.natural value ++ "\n",
           Report.styled (levelColour level) (levelIcon level ++ " " ++ level.advice)]
        tree := world.tree }

/-- A rule in the list for programs. -/
def ruleValue (active : List String) (rule : Rule) : Json.Value :=
  .object
    [("enabled", .bool (active.contains rule.id)),
     ("fixable", .bool rule.fixable),
     ("languages",
      match rule.scope with
      | none => .null
      | some languages => .array (languages.map .string)),
     ("message", .string rule.message),
     ("rule_id", .string rule.id),
     ("severity", .string rule.severity)]

/-- A rule in the list for people. -/
def ruleLine (active : List String) (rule : Rule) : String :=
  let status := if active.contains rule.id then "enabled" else "disabled"
  let scope := (rule.scope.map (Text.join ",")).getD "all"
  "- " ++ rule.id ++ " [" ++ rule.severity ++ ", " ++ scope ++ ", " ++ status ++ "] - " ++
    rule.message

/-- Lists the built-in rules and which of them are active. -/
def listRules (world : World) (settings : Settings) (format : String) : Outcome :=
  let chosen := Text.lower format
  if chosen ≠ "human" ∧ chosen ≠ "json" then
    .failing world.tree (.badValue "--format" "format must be one of: human, json")
  else
    match selectRules world settings [] with
    | .error complaint => .failing world.tree complaint
    | .ok set =>
      let text :=
        if chosen = "json" then
          (Json.Value.object
            [("rules", .array (Catalogue.builtin.map (ruleValue set.ids)))]).compact
        else
          Text.join "\n" ("Available rules:" :: Catalogue.builtin.map (ruleLine set.ids))
      { exitCode := 0, printed := [text], log := [builtNote set], tree := world.tree }

/-! ### The program -/

/-- Runs a command. -/
def execute (world : World) (settings : Settings) (command : Command) : Outcome :=
  match command with
  | .lint arguments => lintFiles world settings arguments
  | .complexity path => measure world path
  | .pullRequest arguments => lintPullRequest world settings arguments
  | .rules format => listRules world settings format

/-- Runs the program with its arguments. -/
def run (world : World) (arguments : List String) : Outcome :=
  match readRoot arguments with
  | none => .failing world.tree .usage
  | some root =>
    if root.help then
      .showing world.tree (world.help none)
    else if root.version then
      .showing world.tree Remote.version
    else
      match root.rest with
      | [] => .failing world.tree .usage
      | first :: rest =>
        match Name.ofText? first with
        | none => .failing world.tree .usage
        | some name =>
          match Settings.load world.environment with
          | .error error => .failing world.tree (.failure error.message)
          | .ok settings =>
            let level := if root.verbose then .debug else settings.level
            if asksForHelp name rest then
              .showing world.tree (world.help (some name))
            else
              match read name rest with
              | none => .failing world.tree .usage
              | some command => { execute world settings command with level := level }

end LineLint.Command
