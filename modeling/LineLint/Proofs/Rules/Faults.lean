/-
**What becomes of a selection from a catalogue.**

A selection may name rules that the catalogue does not have.  If it names none, it picks rules, and
these make a rule set, or the first of them that cannot be in one decides what is reported.  If the
pattern of that one breaks off the reading, nothing is reported about the rule.

Main definitions:

* `LineLint.Rule.Sound`, `LineLint.Rule.Fault` — a rule that can be in a rule set, and what is wrong
  with one that comes after others;
* `LineLint.RuleSet.Fits`, `LineLint.RuleSet.FirstFault` — rules that make a rule set, and the first
  fault of rules that do not;
* `LineLint.Selection.Misses` — an identifier that a selection names and a catalogue does not have;
* `LineLint.Rule.LastIn`, `LineLint.Selection.Picks` — **the rules that a selection picks**.

Main results:

* `LineLint.RuleSet.isOk_ofRules`, `LineLint.RuleSet.ofRules_eq_error_iff` — when rules make a
  rule set, and what is reported if they do not;
* `LineLint.Selection.picks_choose`, `LineLint.Selection.Picks.unique` — a selection picks rules, in
  one way;
* `LineLint.RuleSet.select_congr_disabled` — the unwanted rules may come in any order;
* `LineLint.RuleSet.select_decides` — **what becomes of a selection**.
-/

import LineLint.Proofs.Fallible
import LineLint.Proofs.Rules.Selection
import LineLint.Proofs.Text.Order

set_option relaxedAutoImplicit false
set_option autoImplicit false

namespace LineLint

/-! ### Faults of rules -/

/-- A rule that can be in a rule set: its severity is known, and its pattern can be read. -/
structure Rule.Sound (names : String → Option Nat) (rule : Rule) : Prop where
  severity_mem : rule.severity ∈ ["error", "warning", "info"]
  exists_pattern : ∃ pattern, Pattern.parse rule.pattern names = .ok pattern

/-- What is wrong with a rule that comes after rules with the identifiers `seen`.  An identifier
that is not new is the worst, then a severity that is not known. -/
inductive Rule.Fault (names : String → Option Nat) (seen : List String) (rule : Rule) :
    RuleError → Prop
  | duplicate : rule.id ∈ seen → Fault names seen rule (.duplicateId rule.id)
  | severity : rule.id ∉ seen → rule.severity ∉ ["error", "warning", "info"] →
      Fault names seen rule (.unknownSeverity rule.id rule.severity)
  | pattern {error : Pattern.Error} : rule.id ∉ seen →
      rule.severity ∈ ["error", "warning", "info"] →
      Pattern.parse rule.pattern names = .error error → error.fault.crash? = none →
      Fault names seen rule (.invalidPattern rule.id rule.pattern error)
  | crash {error : Pattern.Error} {cause : Crash} : rule.id ∉ seen →
      rule.severity ∈ ["error", "warning", "info"] →
      Pattern.parse rule.pattern names = .error error → error.fault.crash? = some cause →
      Fault names seen rule (.crash cause)

namespace RuleSet

/-- Rules that make a rule set. -/
structure Fits (names : String → Option Nat) (rules : List Rule) : Prop where
  ids_nodup : (rules.map Rule.id).Nodup
  sound : ∀ rule ∈ rules, rule.Sound names

/-- The fault of the first of some rules that has one: those before it make a rule set. -/
def FirstFault (names : String → Option Nat) (rules : List Rule) (error : RuleError) : Prop :=
  ∃ before rule after, rules = before ++ rule :: after ∧ Fits names before ∧
    rule.Fault names (before.map Rule.id) error

variable {names : String → Option Nat} {rules : List Rule} {seen : List String} {rule : Rule}
  {error : RuleError}

/-- What the making of one rule gives, fault by fault. -/
theorem compile_eq_error_iff :
    compile seen rule names = .error error ↔ rule.Fault names seen error := by
  have hseverity : (Severity.ofName? rule.severity).isNone = true ↔
      rule.severity ∉ ["error", "warning", "info"] := by
    rw [← Severity.exists_ofName?_iff, ← Option.isSome_iff_exists, Option.not_isSome_iff_eq_none,
      Option.isNone_iff_eq_none]
  unfold compile
  constructor
  · intro h
    split at h
    · next hseen =>
        cases h
        exact .duplicate (by simpa using hseen)
    · next hseen =>
        have hseen : rule.id ∉ seen := by simpa using hseen
        split at h
        · next hunknown =>
            cases h
            exact .severity hseen (hseverity.1 hunknown)
        · next hknown =>
            have hknown : rule.severity ∈ ["error", "warning", "info"] :=
              not_not.1 (mt hseverity.2 hknown)
            split at h
            · cases h
            · next error hparse =>
                split at h
                · next cause hcrash =>
                    cases h
                    exact .crash hseen hknown hparse hcrash
                · next hcrash =>
                    cases h
                    exact .pattern hseen hknown hparse hcrash
  · intro h
    cases h with
    | duplicate hseen => simp [hseen]
    | severity hseen hunknown => simp [hseen, hseverity.2 hunknown]
    | pattern hseen hknown hparse hcrash =>
        have hknown : ¬(Severity.ofName? rule.severity).isNone = true :=
          fun hnone => hseverity.1 hnone hknown
        simp [hseen, hknown, hparse, hcrash]
    | crash hseen hknown hparse hcrash =>
        have hknown : ¬(Severity.ofName? rule.severity).isNone = true :=
          fun hnone => hseverity.1 hnone hknown
        simp [hseen, hknown, hparse, hcrash]

/-- A rule makes a rule set alone if it is sound. -/
theorem isOk_compile (rule : Rule) :
    (compile [] rule names).isOk = true ↔ rule.Sound names := by
  cases hcompile : compile [] rule names with
  | ok c =>
      refine ⟨fun _ => ⟨not_not.1 fun hunknown => ?_, c.pattern, (compile_eq_ok hcompile).2.2⟩,
        fun _ => rfl⟩
      have hfault : rule.Fault names [] _ := .severity (by simp) hunknown
      rw [← compile_eq_error_iff, hcompile] at hfault
      cases hfault
  | error error =>
      refine ⟨nofun, fun ⟨hknown, pattern, hparse⟩ => ?_⟩
      cases compile_eq_error_iff.1 hcompile with
      | duplicate hseen => cases hseen
      | severity _ hunknown => exact absurd hknown hunknown
      | pattern _ _ herror =>
          rw [hparse] at herror
          cases herror
      | crash _ _ herror =>
          rw [hparse] at herror
          cases herror

/-- Rules get their patterns one after the other, up to the first that cannot. -/
theorem compileAll_eq_error_iff : compileAll names seen rules = .error error ↔
    ∃ before rule after, rules = before ++ rule :: after ∧
      (∃ compiled, compileAll names seen before = .ok compiled) ∧
      compile ((before.map Rule.id).reverse ++ seen) rule names = .error error := by
  induction rules generalizing seen with
  | nil => simp [compileAll]
  | cons first rules ih =>
      cases hfirst : compile seen first names with
      | error fault =>
          have hall : compileAll names seen (first :: rules) = .error fault := by
            rw [compileAll, hfirst]
            rfl
          rw [hall]
          constructor
          · intro h
            cases h
            exact ⟨[], first, rules, rfl, ⟨[], rfl⟩, hfirst⟩
          · rintro ⟨before, rule, after, hrules, ⟨compiled, hbefore⟩, hrule⟩
            cases before with
            | nil =>
                cases hrules
                have hrule : compile seen first names = .error error := hrule
                rw [hfirst] at hrule
                cases hrule
                rfl
            | cons other before =>
                cases hrules
                -- the rules before the faulty one would have to begin with a faulty one
                obtain ⟨c, -, hc, -⟩ := compileAll_cons_eq_ok.1 hbefore
                rw [hfirst] at hc
                cases hc
      | ok c =>
          have hall : compileAll names seen (first :: rules) = .error error ↔
              compileAll names (first.id :: seen) rules = .error error := by
            rw [compileAll, hfirst]
            cases compileAll names (first.id :: seen) rules <;>
              simp [bind, Except.bind, pure, Except.pure]
          rw [hall, ih]
          constructor
          · rintro ⟨before, rule, after, rfl, ⟨compiled, hbefore⟩, hrule⟩
            refine ⟨first :: before, rule, after, rfl, ⟨c :: compiled, ?_⟩, ?_⟩
            · exact compileAll_cons_eq_ok.2 ⟨c, compiled, hfirst, hbefore, rfl⟩
            · simpa using hrule
          · rintro ⟨before, rule, after, hrules, ⟨compiled, hbefore⟩, hrule⟩
            cases before with
            | nil =>
                cases hrules
                have hrule : compile seen first names = .error error := hrule
                rw [hfirst] at hrule
                cases hrule
            | cons other before =>
                cases hrules
                obtain ⟨-, others, -, hothers, -⟩ := compileAll_cons_eq_ok.1 hbefore
                exact ⟨before, rule, after, rfl, ⟨others, hothers⟩, by simpa using hrule⟩

theorem isOk_compileAll (rules : List Rule) :
    (compileAll names [] rules).isOk = true ↔ Fits names rules := by
  have hsound : (∃ compiled,
      List.Forall₂ (fun rule c => compile [] rule names = .ok c) rules compiled) ↔
        ∀ rule ∈ rules, rule.Sound names := by
    simp only [← mapM_eq_ok_iff, ← isOk_eq_true_iff, isOk_mapM, List.all_eq_true, isOk_compile]
  simp only [isOk_eq_true_iff, compileAll_eq_ok_iff, exists_and_left, hsound]
  constructor
  · rintro ⟨hnodup, -, hall⟩
    exact ⟨hnodup, hall⟩
  · rintro ⟨hnodup, hall⟩
    exact ⟨hnodup, by simp, hall⟩

/-- **When rules make a rule set**: their identifiers differ, and every one of them is sound. -/
theorem isOk_ofRules (rules : List Rule) :
    (ofRules rules names).isOk = true ↔ Fits names rules := by
  rw [← isOk_compileAll]
  unfold ofRules
  cases compileAll names [] rules <;> rfl

/-- **The first fault among the rules is reported**, and nothing else is. -/
theorem ofRules_eq_error_iff :
    ofRules rules names = .error error ↔ FirstFault names rules error := by
  have hofRules : ofRules rules names = .error error ↔
      compileAll names [] rules = .error error := by
    rw [ofRules]
    cases compileAll names [] rules <;> simp [bind, Except.bind, pure, Except.pure]
  have hreverse (before : List Rule) (rule : Rule) :
      compile ((before.map Rule.id).reverse ++ []) rule names = .error error ↔
        rule.Fault names (before.map Rule.id) error := by
    rw [← compile_eq_error_iff]
    simp [compile]
  simp only [hofRules, compileAll_eq_error_iff, ← isOk_eq_true_iff, isOk_compileAll, hreverse,
    FirstFault]

end RuleSet

/-! ### What a selection picks -/

/-- A rule is the last one with its identifier in a catalogue. -/
def Rule.LastIn (catalogue : List Rule) (rule : Rule) : Prop :=
  ∃ before after, catalogue = before ++ rule :: after ∧ ∀ other ∈ after, other.id ≠ rule.id

namespace Selection

/-- An identifier that a selection names and a catalogue does not have. -/
def Misses (selection : Selection) (catalogue : List Rule) (id : String) : Prop :=
  (id ∈ selection.enabled.getD [] ∨ id ∈ selection.disabled) ∧ id ∉ catalogue.map Rule.id

/-- The rules that a selection picks from a catalogue.  Without a list of wanted rules these are all
rules of the catalogue that are not unwanted, in their order.  Otherwise there is one rule for each
wanted identifier that is not unwanted, in the order in which these first occur: the last rule that
the catalogue has for it. -/
inductive Picks (catalogue : List Rule) : Selection → List Rule → Prop
  | all (disabled : List String) :
      Picks catalogue ⟨none, disabled⟩ (catalogue.filter fun rule => rule.id ∉ disabled)
  | listed {ids disabled : List String} {rules : List Rule} :
      rules.Pairwise (fun a b => ids.idxOf a.id < ids.idxOf b.id) →
      (∀ rule, rule ∈ rules ↔ rule.id ∈ ids ∧ rule.id ∉ disabled ∧ rule.LastIn catalogue) →
      Picks catalogue ⟨some ids, disabled⟩ rules

variable {catalogue : List Rule} {selection : Selection}

theorem find?_eq_some_iff {id : String} {rule : Rule} :
    find? catalogue id = some rule ↔ rule.id = id ∧ rule.LastIn catalogue := by
  rw [find?, List.find?_eq_some_iff_append, beq_iff_eq]
  refine and_congr_right fun hid => ?_
  constructor
  · rintro ⟨after, before, hcatalogue, hafter⟩
    refine ⟨before.reverse, after.reverse, ?_, fun other hother => ?_⟩
    · rw [← List.reverse_reverse catalogue, hcatalogue]
      simp
    · simpa [hid] using hafter other (List.mem_reverse.1 hother)
  · rintro ⟨before, after, rfl, hafter⟩
    refine ⟨after.reverse, before.reverse, by simp, fun other hother => ?_⟩
    simpa [hid] using hafter other (List.mem_reverse.1 hother)

/-- A selection picks the rules that are chosen for it. -/
theorem picks_choose (selection : Selection) (catalogue : List Rule) :
    selection.Picks catalogue (selection.choose catalogue) := by
  obtain ⟨enabled, disabled⟩ := selection
  cases enabled with
  | none =>
      have hpicks : Picks catalogue ⟨none, disabled⟩ _ := .all disabled
      simpa [choose] using hpicks
  | some ids =>
      refine .listed ?_ fun rule => ?_
      · refine List.Pairwise.filterMap (find? catalogue) ?_
          ((Text.pairwise_idxOf_eraseDups ids).filter _)
        intro id id' hlt rule hrule rule' hrule'
        rwa [(find?_eq_some_iff.1 hrule).1, (find?_eq_some_iff.1 hrule').1]
      · simp only [choose, List.mem_filterMap, List.mem_filter, List.mem_eraseDups,
          find?_eq_some_iff]
        constructor
        · rintro ⟨id, ⟨hid, hwanted⟩, rfl, hlast⟩
          exact ⟨hid, by simpa using hwanted, hlast⟩
        · rintro ⟨hid, hwanted, hlast⟩
          exact ⟨rule.id, ⟨hid, by simpa using hwanted⟩, rfl, hlast⟩

/-- There is one list of rules that a selection picks. -/
theorem Picks.unique {rules rules' : List Rule} (h : selection.Picks catalogue rules)
    (h' : selection.Picks catalogue rules') : rules = rules' := by
  cases h with
  | all => cases h'; rfl
  | @listed ids disabled _ hpairwise hmem =>
      cases h' with
      | listed hpairwise' hmem' =>
          exact hpairwise.eq_of_mem_iff hpairwise' fun rule => (hmem rule).trans (hmem' rule).symm

end Selection

/-! ### What becomes of a selection -/

theorem Selection.mem_unknown_iff (selection : Selection) (catalogue : List Rule) (id : String) :
    id ∈ selection.unknown catalogue ↔ selection.Misses catalogue id := by
  simp [unknown, Misses, find?, or_and_right]

namespace RuleSet

/-- The unwanted rules may come in any order, and any number of times each. -/
theorem select_congr_disabled (catalogue : List Rule) (enabled : Option (List String))
    {disabled disabled' : List String} (h : ∀ id, id ∈ disabled ↔ id ∈ disabled')
    (names : String → Option Nat) :
    select catalogue ⟨enabled, disabled⟩ names = select catalogue ⟨enabled, disabled'⟩ names := by
  have hcontains (id : String) : disabled.contains id = disabled'.contains id := by
    rw [Bool.eq_iff_iff, List.contains_iff_mem, List.contains_iff_mem, h]
  have hunknown : Selection.unknown ⟨enabled, disabled⟩ catalogue =
      Selection.unknown ⟨enabled, disabled'⟩ catalogue :=
    Text.sortedOnce_congr fun id => by simp [h]
  have hchoose : Selection.choose ⟨enabled, disabled⟩ catalogue =
      Selection.choose ⟨enabled, disabled'⟩ catalogue := by
    simp only [Selection.choose, hcontains]
  rw [select, select, hunknown, hchoose]

/-- **What becomes of a selection.**  If it names identifiers that the catalogue does not have, all
of them are reported, each once and in order.  Otherwise it picks rules in one way; if these make a
rule set, it is the outcome, with all of the rules in their order, and else the first fault among
them is; a pattern that breaks off the reading is such a fault too.  In which order the unwanted
rules are named, and how often, does not matter. -/
theorem select_decides (catalogue : List Rule) (selection : Selection)
    (names : String → Option Nat) :
    ((∃ id, selection.Misses catalogue id) → ∃ ids,
      select catalogue selection names = .error (.unknownIds ids) ∧ ids.Pairwise (· < ·) ∧
      ∀ id, id ∈ ids ↔ selection.Misses catalogue id) ∧
    ((∀ id, ¬selection.Misses catalogue id) →
      (∃ rules, selection.Picks catalogue rules) ∧
      ∀ rules, selection.Picks catalogue rules →
        ((∃ set, select catalogue selection names = .ok set) ↔ Fits names rules) ∧
        (∀ set, select catalogue selection names = .ok set → set.MadeOf rules names) ∧
        ∀ error, select catalogue selection names = .error error ↔ FirstFault names rules error) ∧
    ∀ disabled, (∀ id, id ∈ disabled ↔ id ∈ selection.disabled) →
      select catalogue { selection with disabled := disabled } names =
        select catalogue selection names := by
  have hmem := selection.mem_unknown_iff catalogue
  refine ⟨fun hmisses => ?_, fun hknown => ?_, fun disabled h => ?_⟩
  · obtain ⟨id, hid⟩ := hmisses
    refine ⟨selection.unknown catalogue, ?_, Text.pairwise_sortedOnce _, hmem⟩
    unfold select
    split
    · next hnil =>
        rw [← hmem, hnil] at hid
        cases hid
    · rfl
  · have hnil : selection.unknown catalogue = [] :=
      List.eq_nil_iff_forall_not_mem.2 fun id hid => hknown id ((hmem id).1 hid)
    have hselect : select catalogue selection names =
        ofRules (selection.choose catalogue) names := by
      rw [select, hnil]
    have hpicks := selection.picks_choose catalogue
    refine ⟨⟨_, hpicks⟩, fun rules hrules => ?_⟩
    rw [hrules.unique hpicks, hselect, ← isOk_eq_true_iff]
    exact ⟨isOk_ofRules _, fun set => madeOf_of_ofRules, fun error => ofRules_eq_error_iff⟩
  · exact select_congr_disabled catalogue selection.enabled h names

/-- A rule that repeats something too often makes no rule set, and no report names it. -/
theorem select_breaks_off_at_large_repetition :
    let rule : Rule :=
      { id := "r", pattern := "a\x7b4294967295\x7d", message := "m", severity := "info" }
    (∀ id, ¬Selection.Misses {} [rule] id) ∧ Selection.Picks [rule] {} [rule] ∧
      ¬Fits (fun _ => none) [rule] ∧
      select [rule] {} = .error (.crash .repetitionTooLarge) := by
  intro rule
  have hselect : select [rule] {} = .error (.crash .repetitionTooLarge) := by decide +kernel
  refine ⟨by simp [Selection.Misses], ?_, fun hfits => ?_, hselect⟩
  · simpa using @Selection.Picks.all [rule] []
  · obtain ⟨set, hset⟩ := isOk_eq_true_iff.1 ((isOk_ofRules [rule]).2 hfits)
    rw [← select_all, hselect] at hset
    cases hset

/-- Two rules with one identifier cannot both be in a rule set, but the last one can be wanted. -/
example :
    let first : Rule := { id := "a", pattern := "x", message := "m", severity := "info" }
    let last : Rule := { id := "a", pattern := "y", message := "m", severity := "info" }
    select [first, last] {} = .error (.duplicateId "a") ∧
      select [first, last] { enabled := some ["a", "a"] } =
        .ok ⟨[⟨last, .chars (Pattern.CharClass.literal {} 121)⟩]⟩ := by
  decide +kernel

end RuleSet

end LineLint
