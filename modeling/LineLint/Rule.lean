/-
**Rules.**

A rule is a pattern for a line with what is reported where it matches.  It applies to every text,
or to the texts of some languages, which are named by the endings of file names.

Main definitions:

* `LineLint.Rule` — a rule as it stands in a catalogue;
* `LineLint.Rule.appliesTo` — whether it applies to a language;
* `LineLint.Rule.scope` — its languages, each once and in order.
-/

import LineLint.Text.Order

set_option relaxedAutoImplicit false
set_option autoImplicit false

namespace LineLint

/-- A rule as it stands in a catalogue. -/
structure Rule where
  id : String
  /-- The text of the pattern. -/
  pattern : String
  message : String
  /-- The name of a severity. -/
  severity : String
  /-- The languages it applies to; none stands for all. -/
  languages : Option (List String) := none
  fixable : Bool := false
  deriving DecidableEq, Repr

namespace Rule

/-- Whether a rule applies to a text in the given language, or in none. -/
def appliesTo (rule : Rule) (language : Option String) : Bool :=
  match rule.languages, language with
  | none, _ => true
  | some _, none => false
  | some languages, some language => languages.contains language

/-- The languages of a rule, each once and in order; none stands for all. -/
def scope (rule : Rule) : Option (List String) := rule.languages.map Text.sortedOnce

end Rule

end LineLint
