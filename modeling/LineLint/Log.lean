/-
**Messages of the program about its work.**

Main definitions:

* `LineLint.Level` — how important a message is;
* `LineLint.Channel` — which part of the program it comes from;
* `LineLint.LogEntry` — a message;
* `LineLint.LogEntry.line` — the line that shows it.
-/

set_option relaxedAutoImplicit false
set_option autoImplicit false

namespace LineLint

/-- How important a message is. -/
inductive Level where
  | debug
  | info
  | warning
  | error
  | critical
  deriving DecidableEq, Repr

namespace Level

/-- The place of a level, the least important first. -/
def rank : Level → Nat
  | .debug => 0
  | .info => 1
  | .warning => 2
  | .error => 3
  | .critical => 4

/-- The level with a given name in lower case. -/
def ofName? (name : String) : Option Level :=
  match name with
  | "debug" => some .debug
  | "info" => some .info
  | "warning" => some .warning
  | "error" => some .error
  | "critical" => some .critical
  | _ => none

/-- The name of a level in a message. -/
def label : Level → String
  | .debug => "DEBUG"
  | .info => "INFO"
  | .warning => "WARNING"
  | .error => "ERROR"
  | .critical => "CRITICAL"

end Level

/-- Which part of the program a message comes from. -/
inductive Channel where
  | rules
  | command
  | linting
  | traversal
  | patches
  | remote
  deriving DecidableEq, Repr

/-- The name of a part of the program in a message. -/
def Channel.name : Channel → String
  | .rules => "code_linter.rules"
  | .command => "code_linter.cli"
  | .linting => "code_linter.linting"
  | .traversal => "code_linter.traversal"
  | .patches => "code_linter.diff_adapter"
  | .remote => "code_linter.github"

/-- A message about the work of the program. -/
structure LogEntry where
  level : Level
  channel : Channel
  message : String
  deriving DecidableEq, Repr

namespace LogEntry

/-- Whether a message is shown when `least` is the least level shown. -/
def passes (least : Level) (entry : LogEntry) : Bool := decide (least.rank ≤ entry.level.rank)

/-- The line that shows a message. -/
def line (entry : LogEntry) : String :=
  entry.level.label ++ " " ++ entry.channel.name ++ ": " ++ entry.message

end LogEntry

end LineLint
