/-
**Issues.**

An issue is one place of a text at which a rule matched.  Lines and columns count from one when a
scan makes them; an issue that is read from a report may carry any whole number there, or a truth
value, and any severity may stand in one that is made by hand.

Main definitions:

* `LineLint.Coordinate` — a line or a column;
* `LineLint.Issue` — an issue.
-/

import LineLint.Text.Numeral

set_option relaxedAutoImplicit false
set_option autoImplicit false

namespace LineLint

/-- A line or a column. -/
inductive Coordinate where
  | number (value : Int)
  | truth (value : Bool)
  deriving DecidableEq, Repr

/-- The text of a coordinate in a report. -/
def Coordinate.text : Coordinate → String
  | .number value => Text.integer value
  | .truth value => if value then "True" else "False"

/-- A place of a text at which a rule matched. -/
structure Issue where
  /-- The text that was scanned. -/
  source : String
  line : Coordinate
  column : Coordinate
  message : String
  /-- The name of a severity. -/
  severity : String
  ruleId : String
  fixable : Bool := false
  deriving DecidableEq, Repr

end LineLint
