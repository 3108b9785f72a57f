/-
**What a rule set is made of.**

A rule set holds the rules it was made of, in their order and each with the pattern of its text;
no two of them have the same identifier.

Main definitions:

* `LineLint.RuleSet.MadeOf` — a rule set is made of some rules.

Main results:

* `LineLint.RuleSet.madeOf_of_ofRules` — **a rule set is made of the rules it is asked for**.
-/

import LineLint.Proofs.Pattern.Bounds
import LineLint.RuleSet

set_option relaxedAutoImplicit false
set_option autoImplicit false

namespace LineLint.RuleSet

/-- A rule set holds the rules it was made of, each with its pattern, in which characters can be
given by the names of a table. -/
structure MadeOf (rules : List Rule) (set : RuleSet)
    (names : String → Option Nat := fun _ => none) : Prop where
  rules_eq : set.rules.map CompiledRule.rule = rules
  ids_nodup : set.ids.Nodup
  parsed : ∀ c ∈ set.rules, Pattern.parse c.rule.pattern names = .ok c.pattern

variable {names : String → Option Nat}

theorem compile_eq_ok {seen : List String} {rule : Rule} {c : CompiledRule}
    (h : compile seen rule names = .ok c) :
    c.rule = rule ∧ rule.id ∉ seen ∧ Pattern.parse rule.pattern names = .ok c.pattern := by
  unfold compile at h
  split at h
  · cases h
  · next hseen =>
      split at h
      · cases h
      · split at h
        · next pattern hparse =>
            cases h
            exact ⟨rfl, by simpa using hseen, hparse⟩
        · split at h <;> cases h

/-- The rules with their patterns have identifiers that differ from each other, and from those
`seen`. -/
theorem compileAll_eq_ok {seen : List String} {rules : List Rule} {compiled : List CompiledRule}
    (h : compileAll names seen rules = .ok compiled) :
    MadeOf rules ⟨compiled⟩ names ∧ ∀ c ∈ compiled, c.rule.id ∉ seen := by
  induction rules generalizing seen compiled with
  | nil =>
      cases h
      exact ⟨⟨rfl, List.nodup_nil, by simp⟩, by simp⟩
  | cons rule rules ih =>
      obtain ⟨first, hfirst, h⟩ := exists_of_bind_eq_ok h
      obtain ⟨others, hothers, h⟩ := exists_of_bind_eq_ok h
      cases h
      obtain ⟨rfl, hseen, hparse⟩ := compile_eq_ok hfirst
      obtain ⟨⟨hrules, hnodup, hparsed⟩, hnew⟩ := ih hothers
      refine ⟨⟨?_, ?_, List.forall_mem_cons.2 ⟨hparse, hparsed⟩⟩, ?_⟩
      · exact congrArg (first.rule :: ·) hrules
      · refine List.nodup_cons.2 ⟨fun hmem => ?_, hnodup⟩
        obtain ⟨c, hc, hid⟩ := List.mem_map.1 hmem
        exact hnew c hc (by simp [hid])
      · refine List.forall_mem_cons.2 ⟨hseen, fun c hc hmem => ?_⟩
        exact hnew c hc (List.mem_cons_of_mem _ hmem)

/-- **A rule set is made of the rules it is asked for.** -/
theorem madeOf_of_ofRules {rules : List Rule} {set : RuleSet} (h : ofRules rules names = .ok set) :
    MadeOf rules set names := by
  obtain ⟨compiled, hcompiled, h⟩ := exists_of_bind_eq_ok h
  cases h
  exact (compileAll_eq_ok hcompiled).1

/-- The bounds of the repetitions in the patterns of a rule set are in order. -/
theorem MadeOf.inOrder {rules : List Rule} {set : RuleSet} (h : MadeOf rules set names)
    {c : CompiledRule} (hc : c ∈ set.rules) : c.pattern.InOrder :=
  Pattern.inOrder_of_parse (h.parsed c hc)

end LineLint.RuleSet
