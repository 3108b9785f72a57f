/-
**A matcher answers every call as a new one would.**

A matcher is asked for the rules of languages and for scans, in any order and again and again.  Each
call may leave something behind: the rules of the language that it looked at.  After any calls, the
languages that were looked at are kept once each, the latest new one first, together with the rules
that cover them, and nothing else is kept; so no call can tell what came before it.  No language is
special here: a text may have none, or one that no rule names, and a language that no rule covers is
kept with no rules.

Main definitions:

* `LineLint.Rule.Covers` — a rule is universal, or names the language;
* `LineLint.Matcher.Call`, `LineLint.Matcher.Answer` — what a matcher is asked, and what it returns;
* `LineLint.Matcher.answer`, `LineLint.Matcher.answers` — the answer to a call, and to calls one
  after the other;
* `LineLint.Matcher.Keeps` — what a matcher keeps after it has looked at some languages.

Main results:

* `LineLint.Matcher.Keeps.applicable`, `LineLint.Matcher.Keeps.answer` — what one call keeps;
* `LineLint.Matcher.Keeps.answers` — what calls one after the other keep;
* `LineLint.Matcher.answers_as_new` — **every call is answered as a new matcher would answer it, and
  everything that is kept is the rules that cover its language**.
-/

import LineLint.Proofs.Scan.Memo
import LineLint.Proofs.Text.Order

set_option relaxedAutoImplicit false
set_option autoImplicit false

namespace LineLint

/-! ### Rules that cover a language -/

/-- A rule covers the texts in a language, or those without one: it is universal, or the language is
among those that it names. -/
def Rule.Covers (rule : Rule) (language : Option String) : Prop :=
  rule.languages = none ∨
    ∃ languages name, rule.languages = some languages ∧ language = some name ∧ name ∈ languages

theorem Rule.appliesTo_iff {rule : Rule} {language : Option String} :
    rule.appliesTo language = true ↔ rule.Covers language := by
  unfold Rule.appliesTo Rule.Covers
  cases rule.languages with
  | none => simp
  | some languages =>
      cases language with
      | none => simp
      | some name => simp

instance (rule : Rule) (language : Option String) : Decidable (rule.Covers language) :=
  decidable_of_iff _ Rule.appliesTo_iff

theorem RuleSet.applicable_eq (set : RuleSet) (language : Option String) :
    set.applicable language = set.rules.filter fun c => c.rule.Covers language := by
  refine List.filter_congr fun c _ => ?_
  rw [Bool.eq_iff_iff, decide_eq_true_iff, Rule.appliesTo_iff]

namespace Matcher

/-! ### Calls -/

/-- What a matcher is asked. -/
inductive Call where
  /-- The rules of a language, or those for texts without one. -/
  | rulesFor (language : Option String)
  /-- The issues of a text; without a language, its name decides. -/
  | scan (source text : String) (language : Option String)

/-- What a matcher returns. -/
inductive Answer where
  | rules (rules : List CompiledRule)
  | issues (issues : List Issue)
  deriving DecidableEq

/-- The language whose rules a call looks at.  The scan of an empty text looks at none. -/
def Call.language? : Call → Option (Option String)
  | .rulesFor language => some language
  | .scan source text language =>
    if text.isEmpty then none else some (chosenLanguage source language)

/-- The answer to a call, and the matcher after it. -/
def answer (matcher : Matcher) : Call → Answer × Matcher
  | .rulesFor language =>
    let (rules, after) := matcher.applicable language
    (.rules rules, after)
  | .scan source text language =>
    let (issues, after) := matcher.scan source text language
    (.issues issues, after)

/-- The answers to calls one after the other, and the matcher after all of them. -/
def answers (matcher : Matcher) : List Call → List Answer × Matcher
  | [] => ([], matcher)
  | call :: rest =>
    let (first, after) := matcher.answer call
    let (others, last) := after.answers rest
    (first :: others, last)

/-- What a rule set alone answers. -/
def Call.answerOf (set : RuleSet) : Call → Answer
  | .rulesFor language => .rules (set.applicable language)
  | .scan source text language => .issues (set.scan source text language)

/-! ### What calls leave behind -/

/-- A matcher of a rule set that has looked at some languages: it has kept each of them once, the
latest new one first, with what the rule set says. -/
structure Keeps (set : RuleSet) (asked : List (Option String)) (matcher : Matcher) : Prop where
  faithful : Faithful set matcher
  languages_eq : matcher.memo.map Prod.fst = asked.eraseDups.reverse

variable {set : RuleSet} {asked : List (Option String)} {matcher : Matcher}

theorem Keeps.new (set : RuleSet) : Keeps set [] { rules := set } :=
  ⟨⟨rfl, by simp⟩, rfl⟩

/-- A language is kept if it was looked at. -/
theorem Keeps.isSome_lookup_iff (h : Keeps set asked matcher) (language : Option String) :
    (matcher.memo.lookup language).isSome ↔ language ∈ asked := by
  rw [List.lookup_isSome_iff, ← List.mem_eraseDups, ← List.mem_reverse, ← h.languages_eq,
    List.mem_map]
  constructor
  · rintro ⟨entry, hentry, hlanguage⟩
    exact ⟨entry, hentry, (beq_iff_eq.1 hlanguage).symm⟩
  · rintro ⟨entry, hentry, rfl⟩
    exact ⟨entry, hentry, beq_self_eq_true _⟩

/-- After a look at the rules of a language, this language is kept, too. -/
theorem Keeps.applicable (h : Keeps set asked matcher) (language : Option String) :
    Keeps set (asked ++ [language]) (matcher.applicable language).2 := by
  refine ⟨(h.faithful.applicable language).2, ?_⟩
  have hkept := h.isSome_lookup_iff language
  rw [Text.eraseDups_concat]
  unfold Matcher.applicable
  split
  · next rules hlookup =>
      rw [if_pos (hkept.1 (by simp [hlookup])), h.languages_eq]
  · next hlookup =>
      have hnew : language ∉ asked := fun hmem => by simpa [hlookup] using hkept.2 hmem
      rw [if_neg hnew, List.reverse_append, List.map_cons, h.languages_eq]
      rfl

/-- A call is answered as the rule set says, and keeps the language that it looks at. -/
theorem Keeps.answer (h : Keeps set asked matcher) (call : Call) :
    (matcher.answer call).1 = call.answerOf set ∧
      Keeps set (asked ++ call.language?.toList) (matcher.answer call).2 := by
  cases call with
  | rulesFor language =>
      exact ⟨congrArg Answer.rules (h.faithful.applicable language).1, h.applicable language⟩
  | scan source text language =>
      refine ⟨congrArg Answer.issues (h.faithful.scan source text language).1, ?_⟩
      simp only [Matcher.answer, Matcher.scan, Call.language?]
      split
      · simpa using h
      · exact h.applicable (chosenLanguage source language)

/-- Calls one after the other are answered as the rule set says, and keep the languages that they
look at. -/
theorem Keeps.answers (h : Keeps set asked matcher) (calls : List Call) :
    (matcher.answers calls).1 = calls.map (Call.answerOf set) ∧
      Keeps set (asked ++ calls.filterMap Call.language?) (matcher.answers calls).2 := by
  induction calls generalizing asked matcher with
  | nil => exact ⟨rfl, by simpa [Matcher.answers] using h⟩
  | cons call calls ih =>
      obtain ⟨hfirst, hafter⟩ := h.answer call
      obtain ⟨hothers, hlast⟩ := ih hafter
      have hasked : asked ++ call.language?.toList ++ calls.filterMap Call.language? =
          asked ++ (call :: calls).filterMap Call.language? := by
        cases hlanguage : call.language? <;> simp [hlanguage]
      refine ⟨?_, hasked ▸ hlast⟩
      rw [List.map_cons, ← hfirst, ← hothers]
      rfl

/-- **Every call is answered as a new matcher would answer it.**  That is with the rules that cover
the language, in their order, or with the issues under these rules.  After the calls, the languages
that they looked at are kept once each, and each of them with the rules that cover it. -/
theorem answers_as_new (set : RuleSet) (calls : List Call) :
    let new : Matcher := { rules := set }
    (new.answers calls).1 = calls.map (fun call => (new.answer call).1) ∧
      (∀ language, (new.answer (.rulesFor language)).1 =
        .rules (set.rules.filter fun c => c.rule.Covers language)) ∧
      (∀ source text language, (new.answer (.scan source text language)).1 =
        .issues (scanWith
          (set.rules.filter fun c => c.rule.Covers (chosenLanguage source language))
          source text)) ∧
      (new.answers calls).2.memo.map Prod.fst =
        (calls.filterMap Call.language?).eraseDups.reverse ∧
      ∀ entry ∈ (new.answers calls).2.memo,
        entry.2 = set.rules.filter fun c => c.rule.Covers entry.1 := by
  intro new
  have hnew : Keeps set [] new := .new set
  obtain ⟨hanswers, hkeeps⟩ := hnew.answers calls
  refine ⟨?_, fun language => ?_, fun source text language => ?_, hkeeps.languages_eq, ?_⟩
  · rw [hanswers]
    exact List.map_congr_left fun call _ => (hnew.answer call).1.symm
  · rw [(hnew.answer _).1, Call.answerOf, RuleSet.applicable_eq]
  · rw [(hnew.answer _).1, Call.answerOf, RuleSet.scan, RuleSet.applicable_eq]
  · intro entry hentry
    rw [hkeeps.faithful.memo_eq entry hentry, RuleSet.applicable_eq]

/-- No language and an empty one are kept apart, and a language without rules is looked at once. -/
example :
    let rule : Rule :=
      { id := "r", pattern := "x", message := "m", severity := "info", languages := some ["js"] }
    let new : Matcher := { rules := ⟨[⟨rule, .empty⟩]⟩ }
    let calls : List Call :=
      [.rulesFor none, .rulesFor (some ""), .rulesFor none, .rulesFor (some "js")]
    (new.answers calls).2.memo.map (fun entry => (entry.1, entry.2.map (·.rule.id))) =
      [(some "js", ["r"]), (some "", []), (none, [])] := by
  decide

end Matcher

end LineLint
