/-
**Complexity of a text.**

The score counts the lines on which some branching keyword stands as a whole word, and adds one.
Several keywords on a line count once, and keywords in strings and comments count too.

Main definitions:

* `LineLint.Complexity.branching` — the pattern of a branching keyword;
* `LineLint.Complexity.score` — the score of a text;
* `LineLint.Complexity.Level`, `LineLint.Complexity.classify` — what the score means;
* `LineLint.Complexity.Level.advice` — the advice for a level.
-/

import LineLint.Pattern.Occurrence
import LineLint.Text.Split

set_option relaxedAutoImplicit false
set_option autoImplicit false

namespace LineLint.Complexity

/-- The branching keywords. -/
def keywords : List String := ["if", "for", "while", "switch", "catch", "case"]

/-- A branching keyword as a whole word. -/
def branching : Pattern :=
  Pattern.ofList
    [.anchor (.wordEdge false), Pattern.oneOf (keywords.map Pattern.ofText),
     .anchor (.wordEdge false)]

/-- One, and one more for every line with a branching keyword. -/
def score (text : String) : Nat :=
  1 + ((Text.lines text).filter (fun line => Pattern.occursIn line.toArray branching)).length

/-- What a score means. -/
inductive Level where
  | low
  | moderate
  | high
  deriving DecidableEq, Repr

/-- The level of a score: low below ten, high from twenty on. -/
def classify (value : Int) : Level :=
  if value < 10 then .low else if value < 20 then .moderate else .high

namespace Level

/-- The name of a level. -/
def name : Level → String
  | .low => "low"
  | .moderate => "moderate"
  | .high => "high"

/-- The level with a given name. -/
def ofName? (name : String) : Option Level :=
  if name = "low" then some .low
  else if name = "moderate" then some .moderate
  else if name = "high" then some .high
  else none

/-- The advice for a level. -/
def advice : Level → String
  | .low => "Low complexity - easy to understand"
  | .moderate => "Moderate complexity - consider refactoring"
  | .high => "High complexity - needs refactoring"

end Level

end LineLint.Complexity
