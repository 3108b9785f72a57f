/-
**Issues as a saved report.**

A saved report is a JSON array with one object for each issue, in order, encoded as UTF-8.  Reading
one back takes any JSON text of that shape: other members are passed over, texts are taken from any
value, and a flag from whether the value counts as true; but the line and the column must be whole
numbers or truth values, and the severity a known one.

Main definitions:

* `LineLint.Payload.value` — the JSON value of an issue;
* `LineLint.Payload.write` — the bytes of some issues;
* `LineLint.Payload.Error` — why bytes are no saved report;
* `LineLint.Payload.issue` — the issue of a JSON value;
* `LineLint.Payload.read` — the issues of some bytes.
-/

import LineLint.Issue
import LineLint.Json.Display
import LineLint.Json.Parser
import LineLint.Json.Printer
import LineLint.Severity
import LineLint.Text.Utf8

set_option relaxedAutoImplicit false
set_option autoImplicit false

namespace LineLint.Payload

/-! ### Writing -/

/-- The JSON value of a coordinate. -/
def coordinateValue : Coordinate → Json.Value
  | .number value => .int value
  | .truth value => .bool value

/-- The JSON value of an issue, with its members in the order of their names. -/
def value (issue : Issue) : Json.Value :=
  .object
    [("column", coordinateValue issue.column),
     ("file", .string issue.source),
     ("fixable", .bool issue.fixable),
     ("issue", .string issue.message),
     ("line", coordinateValue issue.line),
     ("rule_id", .string issue.ruleId),
     ("severity", .string issue.severity)]

/-- The text of some issues. -/
def text (issues : List Issue) : String :=
  (Json.Value.array (issues.map value)).indented ++ "\n"

/-- The bytes of some issues. -/
def write (issues : List Issue) : List UInt8 := Text.Utf8.encode (text issues)

/-! ### Reading -/

/-- Why bytes are no saved report. -/
inductive Error where
  /-- They are no UTF-8. -/
  | notText (error : Text.Utf8.Error)
  /-- They are no JSON text. -/
  | notJson (error : Json.Error)
  /-- A whole number has too many digits. -/
  | longNumber (limit digits : Nat)
  /-- The reading breaks off. -/
  | crash (cause : Crash)
  /-- The value is no array. -/
  | notArray
  /-- An entry is no object with all members of an issue. -/
  | badEntry
  /-- The line or the column of an entry is no whole number. -/
  | badCoordinate
  /-- The severity of an entry is not known. -/
  | unknownSeverity (shown : String)
  deriving DecidableEq, Repr

/-- The members that every issue has, in order. -/
def memberNames : List String :=
  ["column", "file", "fixable", "issue", "line", "rule_id", "severity"]

/-- The message for bytes that are no saved report. -/
def Error.message (error : Error) (bytes : List UInt8) : String :=
  match error with
  | .notText error => "Invalid issue payload: " ++ error.message bytes
  | .notJson error =>
    "Invalid issue payload: " ++ error.message (Text.Utf8.decodeLossyChars bytes)
  | .longNumber limit digits => Text.tooManyDigits limit digits
  | .crash cause => cause.message
  | .notArray => "Issue payload must be a JSON array"
  | .badEntry =>
    "Issue entry must be an object with keys: " ++
      (Json.Value.array (memberNames.map Json.Value.string)).quoted
  | .badCoordinate => "Issue line and column must be integers"
  | .unknownSeverity shown => "Unknown severity in issue payload: " ++ shown

/-- The coordinate of a JSON value. -/
def coordinate? : Json.Value → Option Coordinate
  | .int value => some (.number value)
  | .bool value => some (.truth value)
  | _ => none

/-- The severity of a JSON value. -/
def severity? : Json.Value → Option Severity
  | .string name => Severity.ofName? name
  | _ => none

/-- The values of the members of an issue, in the order of their names. -/
def members? (entry : Json.Value) : Option (List Json.Value) :=
  memberNames.mapM entry.member?

/-- The issue of a JSON value. -/
def issue (entry : Json.Value) : Except Error Issue :=
  match members? entry with
  | some [column, file, fixable, message, line, ruleId, severity] =>
    match coordinate? line, coordinate? column with
    | some line, some column =>
      match severity? severity with
      | some known =>
        .ok
          { source := file.display
            line := line
            column := column
            message := message.display
            severity := known.name
            ruleId := ruleId.display
            fixable := fixable.isTruthy }
      | none => .error (.unknownSeverity severity.display)
    | _, _ => .error .badCoordinate
  | _ => .error .badEntry

/-- The issues of some JSON values. -/
def issues : List Json.Value → Except Error (List Issue)
  | [] => .ok []
  | entry :: rest => do
    let first ← issue entry
    let others ← issues rest
    return first :: others

/-- The error for a text that is not taken as JSON. -/
def Error.ofJson (error : Json.Error) : Error :=
  match error.fault with
  | .longNumber limit digits => .longNumber limit digits
  | .crash cause => .crash cause
  | _ => .notJson error

/-- The issues of some bytes. -/
def read (bytes : List UInt8) (limits : Json.Limits := {}) : Except Error (List Issue) :=
  match Text.Utf8.decode bytes with
  | .error error => .error (.notText error)
  | .ok cs =>
    match Json.parse cs limits with
    | .error error => .error (.ofJson error)
    | .ok (.array entries) => issues entries
    | .ok _ => .error .notArray

end LineLint.Payload
