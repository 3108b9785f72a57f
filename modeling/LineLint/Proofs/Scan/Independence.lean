/-
**Rules do not get in each other's way.**

An issue carries the identifier of its rule, and a rule finds the same occurrences in a line
whatever other rules look at it.  So the issues of a scan whose identifiers pass a test are the
issues of a scan with the rules that pass it: one rule alone, all rules but the unwanted ones, or
the same rules in another order.

Main definitions:

* `LineLint.RuleSet.keeping` — the rules of a rule set whose identifiers pass a test.

Main results:

* `LineLint.RuleSet.filter_scan_eq_scan_keeping` — **choosing among the issues is choosing among the
  rules**;
* `LineLint.RuleSet.perm_scan` — another order of the rules only changes the order of the issues;
* `LineLint.Matcher.scan_keeps_rules_apart` — **rules scan independently of each other**.
-/

import LineLint.Proofs.Lint.Schedules
import LineLint.Proofs.Rules.Selection
import LineLint.Proofs.Scan.Hits

set_option relaxedAutoImplicit false
set_option autoImplicit false

namespace LineLint

variable {source : String} {number : Nat}

/-! ### Choosing among the issues -/

/-- The issues of one rule in a line all pass a test of their identifier, or none does. -/
theorem filter_map_issueAt (keep : String → Bool) (rule : Rule) (spans : List Pattern.Span) :
    ((spans.map (issueAt source number rule)).filter fun issue => keep issue.ruleId) =
      if keep rule.id then spans.map (issueAt source number rule) else [] := by
  have hid : ∀ issue ∈ spans.map (issueAt source number rule), issue.ruleId = rule.id := by
    intro issue hissue
    obtain ⟨span, -, rfl⟩ := List.mem_map.1 hissue
    rfl
  cases hkeep : keep rule.id with
  | true => exact List.filter_eq_self.2 fun issue hissue => by rw [hid issue hissue, hkeep]
  | false => exact List.filter_eq_nil_iff.2 fun issue hissue => by simp [hid issue hissue, hkeep]

theorem filter_scanLine (keep : String → Bool) (rules : List CompiledRule) (line : List Char) :
    ((scanLine rules source number line).filter fun issue => keep issue.ruleId) =
      scanLine (rules.filter fun c => keep c.rule.id) source number line := by
  induction rules with
  | nil => rfl
  | cons c rules ih =>
      have hcons (d : CompiledRule) (others : List CompiledRule) :
          scanLine (d :: others) source number line =
            (Pattern.occurrences line.toArray d.pattern).map (issueAt source number d.rule) ++
              scanLine others source number line := rfl
      rw [hcons, List.filter_append, filter_map_issueAt, ih, List.filter_cons]
      split
      · rw [hcons]
      · rw [List.nil_append]

theorem filter_scanLines_ruleId (keep : String → Bool) (rules : List CompiledRule)
    (lines : List (List Char)) :
    ((scanLines rules source number lines).filter fun issue => keep issue.ruleId) =
      scanLines (rules.filter fun c => keep c.rule.id) source number lines := by
  induction lines generalizing number with
  | nil => rfl
  | cons line lines ih => rw [scanLines, List.filter_append, filter_scanLine, ih, scanLines]

/-- No rules find nothing, so they need no case of their own. -/
theorem scanWith_eq (rules : List CompiledRule) (source text : String) :
    scanWith rules source text =
      if text.isEmpty then [] else scanLines rules source 1 (Text.lines text) := by
  unfold scanWith
  cases hempty : text.isEmpty with
  | true => rfl
  | false =>
      cases rules with
      | nil => simp [RuleSet.scanLines_nil]
      | cons c rules => rfl

namespace RuleSet

/-- The rules of a rule set whose identifiers pass a test. -/
def keeping (set : RuleSet) (keep : String → Bool) : RuleSet :=
  ⟨set.rules.filter fun c => keep c.rule.id⟩

theorem applicable_keeping (set : RuleSet) (keep : String → Bool) (language : Option String) :
    (set.keeping keep).applicable language =
      (set.applicable language).filter fun c => keep c.rule.id := by
  simp only [applicable, keeping, List.filter_filter, Bool.and_comm]

/-- **Choosing among the issues is choosing among the rules.** -/
theorem filter_scan_eq_scan_keeping (set : RuleSet) (keep : String → Bool) (source text : String)
    (language : Option String) :
    ((set.scan source text language).filter fun issue => keep issue.ruleId) =
      (set.keeping keep).scan source text language := by
  rw [RuleSet.scan, RuleSet.scan, applicable_keeping, scanWith_eq, scanWith_eq]
  split
  · rfl
  · exact filter_scanLines_ruleId keep _ _

/-! ### Another order of the rules -/

theorem perm_scanLines {rules rules' : List CompiledRule} (h : rules'.Perm rules)
    (lines : List (List Char)) :
    (scanLines rules' source number lines).Perm (scanLines rules source number lines) := by
  induction lines generalizing number with
  | nil => exact .refl _
  | cons line lines ih => exact (h.flatMap_right _).append ih

/-- Another order of the rules only changes the order of the issues. -/
theorem perm_scan {set set' : RuleSet} (h : set'.rules.Perm set.rules) (source text : String)
    (language : Option String) :
    (set'.scan source text language).Perm (set.scan source text language) := by
  rw [RuleSet.scan, RuleSet.scan, scanWith_eq, scanWith_eq]
  split
  · exact .refl _
  · exact perm_scanLines (h.filter _) _

/-- The rules with a given identifier are the same in any order: there is at most one. -/
theorem keeping_id_of_perm {rules rules' : List Rule} {names : String → Option Nat}
    {set set' : RuleSet} (h : set.MadeOf rules names) (h' : set'.MadeOf rules' names)
    (hperm : set'.rules.Perm set.rules) (id : String) :
    set'.keeping (· == id) = set.keeping (· == id) := by
  have hfilter : (set'.rules.filter fun c => c.rule.id == id) =
      set.rules.filter fun c => c.rule.id == id := by
    by_cases hmem : ∃ c ∈ set.rules, c.rule.id = id
    · obtain ⟨c, hc, rfl⟩ := hmem
      rw [h.filter_id hc, h'.filter_id (hperm.mem_iff.2 hc)]
    · have hnone : (set.rules.filter fun c => c.rule.id == id) = [] :=
        List.filter_eq_nil_iff.2 fun c hc hid => hmem ⟨c, hc, by simpa using hid⟩
      have hfiltered := hperm.filter fun c => c.rule.id == id
      rw [hnone] at hfiltered ⊢
      exact hfiltered.eq_nil
  exact congrArg RuleSet.mk hfilter

end RuleSet

/-! ### Rules on their own -/

/-- **Rules scan independently of each other.**  The issues of one rule are those of a scan with
that rule alone.  The issues of a scan without some unwanted rules of a catalogue are those of a
scan with all of its rules, less the issues of the unwanted ones.  And if the rules come in another
order, the same issues come in another order, but those of every single rule in the same one.  It
does not matter what the matchers have been used for before. -/
theorem Matcher.scan_keeps_rules_apart {rules : List Rule} {names : String → Option Nat}
    {set : RuleSet} {matcher : Matcher} (hset : RuleSet.ofRules rules names = .ok set)
    (hused : matcher.Used set) (source text : String) (language : Option String) :
    let issues := (matcher.scan source text language).1
    (∀ rule ∈ rules, ∃ alone, RuleSet.ofRules [rule] names = .ok alone ∧
      ∀ other : Matcher, other.Used alone →
        (issues.filter fun issue => issue.ruleId == rule.id) =
          (other.scan source text language).1) ∧
    (∀ (catalogue : List Rule) (disabled : List String),
      RuleSet.select catalogue {} names = .ok set →
      (∀ id ∈ disabled, id ∈ catalogue.map Rule.id) →
      ∃ part, RuleSet.select catalogue { disabled := disabled } names = .ok part ∧
        ∀ other : Matcher, other.Used part →
          (other.scan source text language).1 =
            issues.filter fun issue => !disabled.contains issue.ruleId) ∧
    ∀ rules' : List Rule, rules'.Perm rules → ∃ set', RuleSet.ofRules rules' names = .ok set' ∧
      ∀ other : Matcher, other.Used set' →
        (other.scan source text language).1.Perm issues ∧
        ∀ id, ((other.scan source text language).1.filter fun issue => issue.ruleId == id) =
          issues.filter fun issue => issue.ruleId == id := by
  intro issues
  have hmade := RuleSet.madeOf_of_ofRules hset
  have hissues : issues = set.scan source text language := (hused.faithful.scan _ _ _).1
  refine ⟨fun rule hrule => ?_, fun catalogue disabled hall hknown => ?_, fun rules' hperm => ?_⟩
  · obtain ⟨c, hc, rfl, halone⟩ := RuleSet.exists_ofRules_singleton hset hrule
    refine ⟨_, halone, fun other hother => ?_⟩
    have hkeeping : set.keeping (· == c.rule.id) = ⟨[c]⟩ :=
      congrArg RuleSet.mk (hmade.filter_id hc)
    rw [hissues, set.filter_scan_eq_scan_keeping (· == c.rule.id), hkeeping]
    exact (hother.faithful.scan _ _ _).1.symm
  · rw [RuleSet.select_all] at hall
    refine ⟨set.keeping fun id => !disabled.contains id, ?_, fun other hother => ?_⟩
    · rw [RuleSet.select_disabled hknown]
      exact RuleSet.ofRules_filter hall fun rule => !disabled.contains rule.id
    · rw [hissues, set.filter_scan_eq_scan_keeping fun id => !disabled.contains id]
      exact (hother.faithful.scan _ _ _).1
  · obtain ⟨set', hset', hrules⟩ := RuleSet.exists_ofRules_of_perm hset hperm
    have hmade' := RuleSet.madeOf_of_ofRules hset'
    refine ⟨set', hset', fun other hother => ?_⟩
    have hscan : (other.scan source text language).1 = set'.scan source text language :=
      (hother.faithful.scan _ _ _).1
    rw [hscan, hissues]
    refine ⟨RuleSet.perm_scan hrules source text language, fun id => ?_⟩
    rw [set'.filter_scan_eq_scan_keeping (· == id), set.filter_scan_eq_scan_keeping (· == id),
      RuleSet.keeping_id_of_perm hmade hmade' hrules]

/-- Two rules that both find something, one of them in scripts only: one alone, one unwanted, and
both the other way round. -/
theorem Matcher.scan_keeps_rules_apart_of_two :
    let first : Rule := { id := "x", pattern := "x", message := "m", severity := "info" }
    let second : Rule :=
      { id := "y", pattern := "y", message := "n", severity := "error", languages := some ["js"] }
    let literal (code : Nat) : Pattern := .chars (Pattern.CharClass.literal {} code)
    let set : RuleSet := ⟨[⟨first, literal 120⟩, ⟨second, literal 121⟩]⟩
    let issues := (Matcher.scan { rules := set } "a.js" "yx\nx" none).1
    RuleSet.ofRules [first, second] = .ok set ∧ RuleSet.select [first, second] {} = .ok set ∧
      issues.map Issue.ruleId = ["x", "y", "x"] ∧
      (∃ alone, RuleSet.ofRules [second] = .ok alone ∧
        (issues.filter fun issue => issue.ruleId == "y") =
          (Matcher.scan { rules := alone } "a.js" "yx\nx" none).1) ∧
      (∃ part, RuleSet.select [first, second] { disabled := ["y"] } = .ok part ∧
        (Matcher.scan { rules := part } "a.js" "yx\nx" none).1 =
          issues.filter fun issue => !(["y"].contains issue.ruleId)) ∧
      ∃ set', RuleSet.ofRules [second, first] = .ok set' ∧
        (Matcher.scan { rules := set' } "a.js" "yx\nx" none).1.Perm issues := by
  intro first second literal set issues
  have hset : RuleSet.ofRules [first, second] = .ok set := by decide +kernel
  have hall : RuleSet.select [first, second] {} = .ok set := by decide +kernel
  have hids : issues.map Issue.ruleId = ["x", "y", "x"] := by decide +kernel
  obtain ⟨halone, hpart, hswapped⟩ := scan_keeps_rules_apart hset .fresh "a.js" "yx\nx" none
  obtain ⟨alone, hofRules, hscan⟩ := halone second (by simp)
  obtain ⟨part, hselect, hscan'⟩ := hpart _ ["y"] hall (by decide)
  obtain ⟨set', hofRules', hperm⟩ := hswapped [second, first] (.swap ..)
  exact ⟨hset, hall, hids, ⟨alone, hofRules, hscan _ .fresh⟩, ⟨part, hselect, hscan' _ .fresh⟩,
    set', hofRules', (hperm _ .fresh).1⟩

end LineLint
