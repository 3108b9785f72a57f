/-
**Rule sets.**

A rule set holds the rules of a selection in order, each with its pattern read.  It can only be made
if the identifiers differ, the severities are known and the patterns can be read; the first rule
that breaks one of these is reported.  A few patterns break off the reading itself, and then there
is no report.

Main definitions:

* `LineLint.CompiledRule`, `LineLint.RuleSet` — a rule with its pattern, and rule sets;
* `LineLint.RuleSet.ofRules` — the rule set of some rules;
* `LineLint.Selection` — which rules of a catalogue are wanted;
* `LineLint.RuleSet.select` — the rule set of a selection;
* `LineLint.RuleSet.applicable` — the rules that apply to a language;
* `LineLint.RuleError.message` — the message when there is no rule set.
-/

import LineLint.Pattern.Reader
import LineLint.Rule
import LineLint.Severity
import LineLint.Text.Split

set_option relaxedAutoImplicit false
set_option autoImplicit false

namespace LineLint

/-- Why there is no rule set. -/
inductive RuleError where
  /-- The selection names rules that the catalogue does not have. -/
  | unknownIds (ids : List String)
  /-- Two rules have the same identifier. -/
  | duplicateId (id : String)
  /-- The severity of a rule has no known name. -/
  | unknownSeverity (id severity : String)
  /-- The pattern of a rule cannot be read. -/
  | invalidPattern (id pattern : String) (error : Pattern.Error)
  /-- The reading of a pattern breaks off. -/
  | crash (cause : Crash)
  deriving DecidableEq, Repr

/-- The message when there is no rule set. -/
def RuleError.message : RuleError → String
  | .unknownIds ids => "Unknown rule ids: " ++ Text.join ", " ids
  | .duplicateId id => "Duplicate rule id: " ++ id
  | .unknownSeverity id severity =>
    "Rule '" ++ id ++ "' has unknown severity '" ++ severity ++ "'"
  | .invalidPattern id pattern error =>
    "Rule '" ++ id ++ "' has an invalid pattern " ++ Text.quoted pattern ++ ": " ++
      error.message pattern
  | .crash cause => cause.message

/-- A rule with its pattern. -/
structure CompiledRule where
  rule : Rule
  pattern : Pattern
  deriving DecidableEq, Repr

/-- Rules in the order in which they report. -/
structure RuleSet where
  rules : List CompiledRule
  deriving DecidableEq, Repr

namespace RuleSet

/-- A rule with its pattern, if its identifier is not among those `seen`.  In the pattern characters
can be given by the names of a table. -/
def compile (seen : List String) (rule : Rule) (names : String → Option Nat := fun _ => none) :
    Except RuleError CompiledRule :=
  if seen.contains rule.id then
    .error (.duplicateId rule.id)
  else if (Severity.ofName? rule.severity).isNone then
    .error (.unknownSeverity rule.id rule.severity)
  else
    match Pattern.parse rule.pattern names with
    | .ok pattern => .ok ⟨rule, pattern⟩
    | .error error =>
      match error.fault.crash? with
      | some cause => .error (.crash cause)
      | none => .error (.invalidPattern rule.id rule.pattern error)

/-- The rules with their patterns, after those with the identifiers `seen`. -/
def compileAll (names : String → Option Nat) (seen : List String) :
    List Rule → Except RuleError (List CompiledRule)
  | [] => .ok []
  | rule :: rest => do
    let first ← compile seen rule names
    let others ← compileAll names (rule.id :: seen) rest
    return first :: others

/-- The rule set of some rules. -/
def ofRules (rules : List Rule) (names : String → Option Nat := fun _ => none) :
    Except RuleError RuleSet := do
  let compiled ← compileAll names [] rules
  return ⟨compiled⟩

/-- The number of rules. -/
def size (set : RuleSet) : Nat := set.rules.length

/-- The identifiers of the rules. -/
def ids (set : RuleSet) : List String := set.rules.map (fun c => c.rule.id)

/-- The rules that apply to a text in the given language, or in none. -/
def applicable (set : RuleSet) (language : Option String) : List CompiledRule :=
  set.rules.filter (fun c => c.rule.appliesTo language)

end RuleSet

/-! ### Selections -/

/-- Which rules of a catalogue are wanted. -/
structure Selection where
  /-- The wanted rules in order; none stands for all. -/
  enabled : Option (List String) := none
  /-- The unwanted rules. -/
  disabled : List String := []
  deriving Repr

namespace Selection

/-- The last rule of a catalogue with a given identifier. -/
def find? (catalogue : List Rule) (id : String) : Option Rule :=
  catalogue.reverse.find? (fun rule => rule.id == id)

/-- The identifiers of the selection that the catalogue does not have, each once and in order. -/
def unknown (selection : Selection) (catalogue : List Rule) : List String :=
  Text.sortedOnce
    ((selection.enabled.getD [] ++ selection.disabled).filter (fun id =>
      (find? catalogue id).isNone))

/-- The rules of the catalogue that the selection wants. -/
def choose (selection : Selection) (catalogue : List Rule) : List Rule :=
  match selection.enabled with
  | none => catalogue.filter (fun rule => !selection.disabled.contains rule.id)
  | some ids =>
    (ids.eraseDups.filter (fun id => !selection.disabled.contains id)).filterMap (find? catalogue)

end Selection

/-- The rule set of a selection from a catalogue. -/
def RuleSet.select (catalogue : List Rule) (selection : Selection)
    (names : String → Option Nat := fun _ => none) : Except RuleError RuleSet :=
  match selection.unknown catalogue with
  | [] => RuleSet.ofRules (selection.choose catalogue) names
  | ids => .error (.unknownIds ids)

end LineLint
