/-
**A scan misses no match of a regular rule and invents none.**

The issues of one rule in one line are picked out of a scan by the number of the line and the
identifier of the rule.  For a rule with a regular pattern they begin where the first match does,
and there is no match that lies between two of them or behind the last one.

Main definitions:

* `LineLint.Issue.isOf` — an issue is one of a rule in a line.

Main results:

* `LineLint.RuleSet.MadeOf.filter_scan` — the issues of one rule in one line;
* `LineLint.Matcher.scan_exhausts_lines` — **a scan misses no match and invents none**.
-/

import LineLint.Proofs.Pattern.Exhaustive
import LineLint.Proofs.Rules.Compiled
import LineLint.Proofs.Scan.Memo
import Mathlib

set_option relaxedAutoImplicit false
set_option autoImplicit false

namespace LineLint

/-- Whether an issue is one of the rule with the given identifier, in the line with the given
number. -/
def Issue.isOf (id : String) (number : Nat) (issue : Issue) : Bool :=
  issue.ruleId == id && issue.line == .number number

/-- The issues of a rule that stand in a line. -/
theorem Issue.filter_isOf (id : String) (number : Nat) (issues : List Issue) :
    (issues.filter fun issue => issue.ruleId == id).filter
        (fun issue => issue.line == .number number) = issues.filter (Issue.isOf id number) := by
  rw [List.filter_filter]
  refine List.filter_congr fun issue _ => ?_
  rw [isOf, Bool.and_comm]

section Line

variable {rules : List CompiledRule} {source : String} {rule : Rule} {id : String}
  {number other : Nat} {line : List Char}

theorem filter_map_issueAt_of_ne (h : rule.id ≠ id ∨ number ≠ other) (spans : List Pattern.Span) :
    (spans.map (issueAt source number rule)).filter (Issue.isOf id other) = [] := by
  refine List.filter_eq_nil_iff.2 fun issue hissue => ?_
  obtain ⟨span, -, rfl⟩ := List.mem_map.1 hissue
  rw [Issue.isOf, Bool.and_eq_true, beq_iff_eq, beq_iff_eq]
  rintro ⟨hid, hnumber⟩
  cases hnumber
  exact h.elim (fun hne => hne hid) (fun hne => hne rfl)

theorem filter_map_issueAt_self (spans : List Pattern.Span) :
    (spans.map (issueAt source number rule)).filter (Issue.isOf rule.id number) =
      spans.map (issueAt source number rule) := by
  refine List.filter_eq_self.2 fun issue hissue => ?_
  obtain ⟨span, -, rfl⟩ := List.mem_map.1 hissue
  simp [Issue.isOf, issueAt]

theorem filter_scanLine_of_ne (h : ∀ c ∈ rules, c.rule.id ≠ id ∨ number ≠ other) :
    (scanLine rules source number line).filter (Issue.isOf id other) = [] := by
  rw [scanLine, List.filter_flatMap, List.flatMap_eq_nil_iff]
  exact fun c hc => filter_map_issueAt_of_ne (h c hc) _

/-- The issues of one rule in a line are those of its occurrences. -/
theorem filter_scanLine_self (hnodup : (rules.map fun c => c.rule.id).Nodup) {c : CompiledRule}
    (hc : c ∈ rules) :
    (scanLine rules source number line).filter (Issue.isOf c.rule.id number) =
      (Pattern.occurrences line.toArray c.pattern).map (issueAt source number c.rule) := by
  induction rules with
  | nil => cases hc
  | cons first rules ih =>
      obtain ⟨hfirst, hnodup⟩ := List.nodup_cons.1 hnodup
      have hne : ∀ d ∈ rules, first.rule.id ≠ d.rule.id := fun d hd heq =>
        hfirst (List.mem_map.2 ⟨d, hd, heq.symm⟩)
      have hcons : scanLine (first :: rules) source number line =
          (Pattern.occurrences line.toArray first.pattern).map (issueAt source number first.rule) ++
            scanLine rules source number line := rfl
      rw [hcons, List.filter_append]
      rcases List.mem_cons.1 hc with rfl | hc
      · rw [filter_map_issueAt_self, filter_scanLine_of_ne, List.append_nil]
        exact fun d hd => Or.inl (hne d hd).symm
      · rw [filter_map_issueAt_of_ne (Or.inl (hne c hc)), List.nil_append, ih hnodup hc]

theorem filter_scanLines_of_lt (lines : List (List Char)) (h : other < number) :
    (scanLines rules source number lines).filter (Issue.isOf id other) = [] := by
  induction lines generalizing number with
  | nil => rfl
  | cons line lines ih =>
      rw [scanLines, List.filter_append, ih (by omega), List.append_nil, filter_scanLine_of_ne]
      exact fun c _ => Or.inr (by omega)

/-- The issues of one rule in one of several lines. -/
theorem filter_scanLines (hnodup : (rules.map fun c => c.rule.id).Nodup) {c : CompiledRule}
    (hc : c ∈ rules) {lines : List (List Char)} {place : Nat} (hline : lines[place]? = some line) :
    (scanLines rules source number lines).filter (Issue.isOf c.rule.id (number + place)) =
      (Pattern.occurrences line.toArray c.pattern).map
        (issueAt source (number + place) c.rule) := by
  induction lines generalizing number place with
  | nil => cases hline
  | cons first lines ih =>
      rw [scanLines, List.filter_append]
      cases place with
      | zero =>
          cases hline
          rw [Nat.add_zero, filter_scanLine_self hnodup hc, filter_scanLines_of_lt lines (by omega),
            List.append_nil]
      | succ place =>
          have hrest := @ih (number + 1) place hline
          rw [Nat.add_right_comm, Nat.add_assoc] at hrest
          -- the first line has another number, and so has no issue of this one
          rw [filter_scanLine_of_ne fun c _ => Or.inr (by omega), List.nil_append, hrest]

end Line

/-! ### One rule in one line of a text -/

/-- The issues of one rule in one line of a text are those of its occurrences. -/
theorem RuleSet.MadeOf.filter_scan {rules : List Rule} {set : RuleSet}
    {names : String → Option Nat} (h : set.MadeOf rules names)
    {source text : String} {language : Option String} (htext : text ≠ "") {c : CompiledRule}
    (hc : c ∈ set.rules) (happlies : c.rule.appliesTo (chosenLanguage source language) = true)
    {number : Nat} {line : List Char} (hline : (Text.lines text)[number]? = some line) :
    (set.scan source text language).filter (Issue.isOf c.rule.id (number + 1)) =
      (Pattern.occurrences line.toArray c.pattern).map (issueAt source (number + 1) c.rule) := by
  have hmem : c ∈ set.applicable (chosenLanguage source language) :=
    List.mem_filter.2 ⟨hc, happlies⟩
  have hnodup : ((set.applicable (chosenLanguage source language)).map
      fun c => c.rule.id).Nodup :=
    h.ids_nodup.sublist (List.filter_sublist.map _)
  have hempty : text.isEmpty = false := by simpa using htext
  have hsome : (set.applicable (chosenLanguage source language)).isEmpty = false :=
    List.isEmpty_eq_false_iff.2 (List.ne_nil_of_mem hmem)
  rw [RuleSet.scan, scanWith, hempty, hsome, if_neg (by simp), Nat.add_comm number]
  exact filter_scanLines hnodup hmem hline

/-- **A scan misses no match of a regular rule and invents none.**  The issues that a scan has for
such a rule in a line are those of spans that exhaust the line. -/
theorem Matcher.scan_exhausts_lines {rules : List Rule} {names : String → Option Nat}
    {set : RuleSet} {matcher : Matcher} (hset : RuleSet.ofRules rules names = .ok set)
    (h : matcher.Reachable set) (source text : String) (language : Option String)
    (htext : text ≠ "") {c : CompiledRule} (hc : c ∈ set.rules)
    (happlies : c.rule.appliesTo (chosenLanguage source language) = true)
    (hregular : c.pattern.regular = true) {number : Nat} {line : List Char}
    (hline : (Text.lines text)[number]? = some line) :
    ∃ spans : List Pattern.Span,
      (matcher.scan source text language).1.filter (Issue.isOf c.rule.id (number + 1)) =
        spans.map (issueAt source (number + 1) c.rule) ∧
      Pattern.Exhausts line.toArray c.pattern spans := by
  have hmade := RuleSet.madeOf_of_ofRules hset
  refine ⟨Pattern.occurrences line.toArray c.pattern, ?_, ?_⟩
  · rw [h.scan_fst]
    exact hmade.filter_scan htext hc happlies hline
  · exact Pattern.exhausts_occurrences _ hregular (hmade.inOrder hc)

/-- A repetition of something that can span nothing, in the second line of a text. -/
theorem Matcher.scan_exhausts_lines_nested :
    let rule : Rule := { id := "x", pattern := "(a|b*)+?c", message := "m", severity := "info" }
    let literal (code : Nat) : Pattern := .chars (Pattern.CharClass.literal {} code)
    let body : Pattern := .alt (literal 97) (.repeated (literal 98) 0 none .greedy)
    let pattern : Pattern := .seq (.repeated (.group 1 body) 1 none .lazy) (literal 99)
    let set : RuleSet := ⟨[⟨rule, pattern⟩]⟩
    RuleSet.ofRules [rule] = .ok set ∧ pattern.regular = true ∧ ∃ spans : List Pattern.Span,
      (Matcher.scan { rules := set } "a.py" "x\nabbc" none).1.filter (Issue.isOf "x" 2) =
        spans.map (issueAt "a.py" 2 rule) ∧
      Pattern.Exhausts #['a', 'b', 'b', 'c'] pattern spans := by
  intro rule literal body pattern set
  have hset : RuleSet.ofRules [rule] = .ok set := by cbv
  exact ⟨hset, rfl, scan_exhausts_lines hset .fresh "a.py" "x\nabbc" none (by decide)
    List.mem_cons_self rfl rfl (by decide)⟩

end LineLint
