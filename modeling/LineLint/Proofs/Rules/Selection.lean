/-
**Rules go into a rule set one by one.**

Whether a rule can be in a rule set depends on the rule alone, but for its identifier, which no
other rule may have.  So every part of the rules of a rule set makes a rule set again, and so do the
same rules in another order; each rule keeps its pattern.

Main results:

* `LineLint.RuleSet.ofRules_eq_ok_iff` — **which rules make a rule set**;
* `LineLint.RuleSet.ofRules_filter`, `LineLint.RuleSet.exists_ofRules_of_perm` — a part of the
  rules, and another order of them;
* `LineLint.Selection.unknown_eq_nil_iff` — when a selection names no unknown rule;
* `LineLint.RuleSet.select_all`, `LineLint.RuleSet.select_disabled` — all rules of a catalogue, and
  all but some.
-/

import LineLint.Proofs.Rules.Compiled
import Mathlib.Data.List.Forall2
import Mathlib.Data.List.Perm.Basic

set_option relaxedAutoImplicit false
set_option autoImplicit false

namespace LineLint

namespace RuleSet

variable {rules : List Rule} {set : RuleSet} {names : String → Option Nat}

/-- Only its identifier ties a rule to those that came before it. -/
theorem compile_eq_ok_iff {seen : List String} {rule : Rule} {c : CompiledRule} :
    compile seen rule names = .ok c ↔ rule.id ∉ seen ∧ compile [] rule names = .ok c := by
  by_cases hseen : rule.id ∈ seen
  · simp [compile, hseen]
  · simp [compile, hseen]

theorem compileAll_cons_eq_ok {seen : List String} {rule : Rule} {compiled : List CompiledRule} :
    compileAll names seen (rule :: rules) = .ok compiled ↔
      ∃ first others, compile seen rule names = .ok first ∧
        compileAll names (rule.id :: seen) rules = .ok others ∧ compiled = first :: others := by
  constructor
  · intro h
    obtain ⟨first, hfirst, h⟩ := exists_of_bind_eq_ok h
    obtain ⟨others, hothers, h⟩ := exists_of_bind_eq_ok h
    cases h
    exact ⟨first, others, hfirst, hothers, rfl⟩
  · rintro ⟨first, others, hfirst, hothers, rfl⟩
    simp only [compileAll, hfirst, hothers]
    rfl

/-- Rules get their patterns if their identifiers are new, and each rule could stand alone. -/
theorem compileAll_eq_ok_iff {seen : List String} {compiled : List CompiledRule} :
    compileAll names seen rules = .ok compiled ↔
      (rules.map Rule.id).Nodup ∧ (∀ rule ∈ rules, rule.id ∉ seen) ∧
        List.Forall₂ (fun rule c => compile [] rule names = .ok c) rules compiled := by
  induction rules generalizing seen compiled with
  | nil => simp [compileAll, eq_comm]
  | cons rule rules ih =>
      rw [compileAll_cons_eq_ok, List.map_cons, List.nodup_cons, List.forall_mem_cons,
        List.forall₂_cons_left_iff]
      constructor
      · rintro ⟨first, others, hfirst, hothers, rfl⟩
        obtain ⟨hseen, hfirst⟩ := compile_eq_ok_iff.1 hfirst
        obtain ⟨hnodup, hnew, hothers⟩ := ih.1 hothers
        refine ⟨⟨fun hmem => ?_, hnodup⟩, ⟨hseen, fun other hother hmem => ?_⟩,
          first, others, hfirst, hothers, rfl⟩
        · obtain ⟨other, hother, hid⟩ := List.mem_map.1 hmem
          exact hnew other hother (by simp [hid])
        · exact hnew other hother (List.mem_cons_of_mem _ hmem)
      · rintro ⟨⟨hfresh, hnodup⟩, ⟨hseen, hnew⟩, first, others, hfirst, hothers, rfl⟩
        refine ⟨first, others, compile_eq_ok_iff.2 ⟨hseen, hfirst⟩, ih.2 ⟨hnodup, ?_, hothers⟩, rfl⟩
        intro other hother hmem
        rcases List.mem_cons.1 hmem with hid | hmem
        · exact hfresh (List.mem_map.2 ⟨other, hother, hid⟩)
        · exact hnew other hother hmem

/-- **Which rules make a rule set**: those with different identifiers, each of which could be in a
rule set alone. -/
theorem ofRules_eq_ok_iff :
    ofRules rules names = .ok set ↔ (rules.map Rule.id).Nodup ∧
      List.Forall₂ (fun rule c => compile [] rule names = .ok c) rules set.rules := by
  have hofRules : ofRules rules names = .ok set ↔ compileAll names [] rules = .ok set.rules := by
    unfold ofRules
    constructor
    · intro h
      obtain ⟨compiled, hcompiled, h⟩ := exists_of_bind_eq_ok h
      cases h
      exact hcompiled
    · intro h
      rw [h]
      rfl
  rw [hofRules, compileAll_eq_ok_iff]
  simp

/-- A part of the rules of a rule set makes a rule set, with the same patterns. -/
theorem ofRules_filter (h : ofRules rules names = .ok set) (p : Rule → Bool) :
    ofRules (rules.filter p) names = .ok ⟨set.rules.filter fun c => p c.rule⟩ := by
  obtain ⟨hnodup, hcompiled⟩ := ofRules_eq_ok_iff.1 h
  refine ofRules_eq_ok_iff.2 ⟨hnodup.sublist (List.filter_sublist.map _), ?_⟩
  refine List.rel_filter (fun rule c hrule => ?_) hcompiled
  have hself : c.rule = rule := (compile_eq_ok hrule).1
  simp only [hself]

/-- The rules of a rule set make a rule set in any other order, with the same patterns. -/
theorem exists_ofRules_of_perm (h : ofRules rules names = .ok set) {rules' : List Rule}
    (hperm : rules'.Perm rules) :
    ∃ set', ofRules rules' names = .ok set' ∧ set'.rules.Perm set.rules := by
  obtain ⟨hnodup, hcompiled⟩ := ofRules_eq_ok_iff.1 h
  obtain ⟨compiled, hcompiled', hperm'⟩ := List.perm_comp_forall₂ hperm hcompiled
  exact ⟨⟨compiled⟩, ofRules_eq_ok_iff.2 ⟨(hperm.map _).nodup_iff.2 hnodup, hcompiled'⟩, hperm'⟩

/-- Every rule of a rule set is in it with a pattern, and makes a rule set alone. -/
theorem exists_ofRules_singleton (h : ofRules rules names = .ok set) {rule : Rule}
    (hrule : rule ∈ rules) : ∃ c ∈ set.rules, c.rule = rule ∧ ofRules [rule] names = .ok ⟨[c]⟩ := by
  have hmade := madeOf_of_ofRules h
  obtain ⟨-, hcompiled⟩ := ofRules_eq_ok_iff.1 h
  rw [← hmade.rules_eq, List.forall₂_map_left_iff, List.forall₂_same] at hcompiled
  rw [← hmade.rules_eq] at hrule
  obtain ⟨c, hc, rfl⟩ := List.mem_map.1 hrule
  exact ⟨c, hc, rfl, ofRules_eq_ok_iff.2 ⟨by simp, .cons (hcompiled c hc) .nil⟩⟩

/-- No other rule of a rule set has the identifier of a given one. -/
theorem MadeOf.filter_id (h : set.MadeOf rules names) {c : CompiledRule} (hc : c ∈ set.rules) :
    (set.rules.filter fun d => d.rule.id == c.rule.id) = [c] := by
  obtain ⟨before, after, hsplit⟩ := List.append_of_mem hc
  have hnodup := h.ids_nodup
  rw [ids, hsplit, List.map_append, List.map_cons] at hnodup
  obtain ⟨-, hafter, hapart⟩ := List.nodup_append.1 hnodup
  have hbefore : (before.filter fun d => d.rule.id == c.rule.id) = [] := by
    refine List.filter_eq_nil_iff.2 fun d hd hid => ?_
    exact hapart _ (List.mem_map.2 ⟨d, hd, rfl⟩) _ List.mem_cons_self (by simpa using hid)
  have hafter : (after.filter fun d => d.rule.id == c.rule.id) = [] := by
    refine List.filter_eq_nil_iff.2 fun d hd hid => ?_
    exact (List.nodup_cons.1 hafter).1 (List.mem_map.2 ⟨d, hd, by simpa using hid⟩)
  rw [hsplit, List.filter_append, hbefore, List.filter_cons_of_pos (by simp), hafter,
    List.nil_append]

end RuleSet

/-! ### Selections -/

/-- A selection names no unknown rule if the catalogue has all identifiers that it names. -/
theorem Selection.unknown_eq_nil_iff (selection : Selection) (catalogue : List Rule) :
    selection.unknown catalogue = [] ↔
      ∀ id ∈ selection.enabled.getD [] ++ selection.disabled, id ∈ catalogue.map Rule.id := by
  have hfind (id : String) : (find? catalogue id).isNone = true ↔ id ∉ catalogue.map Rule.id := by
    simp [find?]
  rw [List.eq_nil_iff_forall_not_mem]
  simp only [unknown, Text.mem_sortedOnce, List.mem_filter, hfind, not_and, not_not]

theorem RuleSet.select_of_known {names : String → Option Nat} {selection : Selection}
    {catalogue : List Rule}
    (h : ∀ id ∈ selection.enabled.getD [] ++ selection.disabled, id ∈ catalogue.map Rule.id) :
    select catalogue selection names = ofRules (selection.choose catalogue) names := by
  rw [select, (selection.unknown_eq_nil_iff catalogue).2 h]

/-- Without a wish, all rules of the catalogue are selected. -/
theorem RuleSet.select_all (catalogue : List Rule) (names : String → Option Nat) :
    select catalogue {} names = ofRules catalogue names := by
  rw [select_of_known (by simp)]
  simp [Selection.choose]

/-- Known rules that are unwanted are left out, and all others stay. -/
theorem RuleSet.select_disabled {catalogue : List Rule} {disabled : List String}
    {names : String → Option Nat} (h : ∀ id ∈ disabled, id ∈ catalogue.map Rule.id) :
    select catalogue { disabled := disabled } names =
      ofRules (catalogue.filter fun rule => !disabled.contains rule.id) names := by
  rw [select_of_known (by simpa using h)]
  rfl

end LineLint
