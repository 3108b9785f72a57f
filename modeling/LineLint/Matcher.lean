/-
**A matcher: a rule set that remembers which rules apply.**

The rules that apply to a language are worked out once and then kept.  What is kept is never shown:
`LineLint.RuleSet.scan` says what a scan gives without it.

Main definitions:

* `LineLint.Memo` — the rules kept for languages;
* `LineLint.Matcher`, `LineLint.Matcher.applicable` — a matcher, and its look at the rules of a
  language;
* `LineLint.Matcher.scan` — the issues of a text.
-/

import LineLint.Scan

set_option relaxedAutoImplicit false
set_option autoImplicit false

namespace LineLint

/-- The rules kept for languages, latest first. -/
abbrev Memo := List (Option String × List CompiledRule)

/-- A rule set with the rules kept for languages. -/
structure Matcher where
  rules : RuleSet
  memo : Memo := []

namespace Matcher

/-- The rules that apply to a language, and the matcher that has them kept. -/
def applicable (matcher : Matcher) (language : Option String) : List CompiledRule × Matcher :=
  match matcher.memo.lookup language with
  | some rules => (rules, matcher)
  | none =>
    let rules := matcher.rules.applicable language
    (rules, { matcher with memo := (language, rules) :: matcher.memo })

/-- The issues of a text, and the matcher after the scan.  An empty text is not looked at. -/
def scan (matcher : Matcher) (source text : String) (language : Option String := none) :
    List Issue × Matcher :=
  if text.isEmpty then
    ([], matcher)
  else
    let (rules, after) := matcher.applicable (chosenLanguage source language)
    (scanWith rules source text, after)

end Matcher

end LineLint
