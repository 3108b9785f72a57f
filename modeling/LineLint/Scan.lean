/-
**Scanning a text.**

Every line of a text is searched for the occurrences of every rule that applies to its language.
Issues come in the order of the lines, within a line in the order of the rules, and for one rule
from left to right.

Main definitions:

* `LineLint.issueAt` — the issue for an occurrence;
* `LineLint.scanLine`, `LineLint.scanLines` — the issues of lines;
* `LineLint.scanWith` — the issues of a text under given rules;
* `LineLint.RuleSet.scan` — the issues of a text under the rules that apply to it.
-/

import LineLint.Issue
import LineLint.Language
import LineLint.Pattern.Occurrence
import LineLint.RuleSet
import LineLint.Text.Split

set_option relaxedAutoImplicit false
set_option autoImplicit false

namespace LineLint

/-- The issue for an occurrence of a rule in a line. -/
def issueAt (source : String) (number : Nat) (rule : Rule) (span : Pattern.Span) : Issue :=
  { source := source
    line := .number number
    column := .number (span.start + 1)
    message := rule.message
    severity := rule.severity
    ruleId := rule.id
    fixable := rule.fixable }

/-- The issues of a line: those of the first rule, then those of the second, and so on. -/
def scanLine (rules : List CompiledRule) (source : String) (number : Nat) (line : List Char) :
    List Issue :=
  rules.flatMap (fun c =>
    (Pattern.occurrences line.toArray c.pattern).map (issueAt source number c.rule))

/-- The issues of lines, the first of which has the given number. -/
def scanLines (rules : List CompiledRule) (source : String) (number : Nat) :
    List (List Char) → List Issue
  | [] => []
  | line :: rest => scanLine rules source number line ++ scanLines rules source (number + 1) rest

/-- The issues of a text under the given rules; an empty text has no lines. -/
def scanWith (rules : List CompiledRule) (source text : String) : List Issue :=
  if text.isEmpty || rules.isEmpty then [] else scanLines rules source 1 (Text.lines text)

/-- The language of a text: the one that is given, or that of its name. -/
def chosenLanguage (source : String) (language : Option String) : Option String :=
  language.or (languageFor source)

/-- The issues of a text under the rules that apply to its language. -/
def RuleSet.scan (set : RuleSet) (source text : String) (language : Option String := none) :
    List Issue :=
  scanWith (set.applicable (chosenLanguage source language)) source text

end LineLint
