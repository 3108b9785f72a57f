/-
**What a matcher keeps is never shown.**

A matcher that was made for a rule set and has answered any number of questions still keeps only
what the rule set says; so it scans as the rule set does.

Main definitions:

* `LineLint.Matcher.Reachable` — the matchers of a rule set after any calls;
* `LineLint.Matcher.Faithful` — everything that is kept is what the rule set says.

Main results:

* `LineLint.Matcher.Reachable.faithful` — the matchers of a rule set stay faithful;
* `LineLint.Matcher.Reachable.scan_fst` — **they scan as the rule set does**.
-/

import LineLint.Matcher

set_option relaxedAutoImplicit false
set_option autoImplicit false

namespace LineLint.Matcher

/-- The matchers of a rule set: a new one, and what any calls make of it. -/
inductive Reachable (set : RuleSet) : Matcher → Prop
  | fresh : Reachable set { rules := set }
  | applicable {matcher : Matcher} (language : Option String) : Reachable set matcher →
      Reachable set (matcher.applicable language).2
  | scan {matcher : Matcher} (source text : String) (language : Option String) :
      Reachable set matcher → Reachable set (matcher.scan source text language).2

/-- Everything that a matcher keeps is what the rule set says. -/
structure Faithful (set : RuleSet) (matcher : Matcher) : Prop where
  rules_eq : matcher.rules = set
  memo_eq : ∀ entry ∈ matcher.memo, entry.2 = set.applicable entry.1

variable {set : RuleSet} {matcher : Matcher}

theorem mem_of_lookup_eq_some {memo : Memo} {language : Option String} {rules : List CompiledRule}
    (h : memo.lookup language = some rules) : (language, rules) ∈ memo := by
  obtain ⟨before, after, rfl, -⟩ := List.lookup_eq_some_iff.1 h
  simp

/-- A look at the rules of a language gives what the rule set says, and keeps nothing else. -/
theorem Faithful.applicable (h : Faithful set matcher) (language : Option String) :
    (matcher.applicable language).1 = set.applicable language ∧
      Faithful set (matcher.applicable language).2 := by
  obtain ⟨hrules, hmemo⟩ := h
  unfold Matcher.applicable
  split
  · next rules hlookup =>
      exact ⟨hmemo _ (mem_of_lookup_eq_some hlookup), hrules, hmemo⟩
  · refine ⟨by rw [hrules], hrules, List.forall_mem_cons.2 ⟨?_, hmemo⟩⟩
    rw [hrules]

theorem Faithful.scan (h : Faithful set matcher) (source text : String)
    (language : Option String) :
    (matcher.scan source text language).1 = set.scan source text language ∧
      Faithful set (matcher.scan source text language).2 := by
  obtain ⟨hrules, hkept⟩ := h.applicable (chosenLanguage source language)
  unfold Matcher.scan
  split
  · next hempty => exact ⟨by simp [RuleSet.scan, scanWith, hempty], h⟩
  · refine ⟨?_, hkept⟩
    rw [RuleSet.scan, ← hrules]

/-- The matchers of a rule set stay faithful, whatever they are asked. -/
theorem Reachable.faithful (h : Reachable set matcher) : Faithful set matcher := by
  induction h with
  | fresh => exact ⟨rfl, by simp⟩
  | applicable language _ ih => exact (ih.applicable language).2
  | scan source text language _ ih => exact (ih.scan source text language).2

/-- **The matchers of a rule set scan as the rule set does.** -/
theorem Reachable.scan_fst (h : Reachable set matcher) (source text : String)
    (language : Option String) :
    (matcher.scan source text language).1 = set.scan source text language :=
  (h.faithful.scan source text language).1

end LineLint.Matcher
