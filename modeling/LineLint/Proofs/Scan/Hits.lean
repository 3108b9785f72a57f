/-
**A scan reports every occurrence once, and in order.**

A hit says where in a text which rule occurs: a line, a rule by its place in the rule set, and a
span.  The hits of a text are listed line by line, rule by rule and from left to right; a scan
reports exactly them.

Main definitions:

* `LineLint.Hit`, `LineLint.Hit.Before` — hits, and their order;
* `LineLint.Hit.Occurs` — a hit is one of a text under the rules that apply to a language;
* `LineLint.Hit.report?` — the issue of a hit;
* `LineLint.RuleSet.hits` — the hits of a text.

Main results:

* `LineLint.RuleSet.mem_hits`, `LineLint.RuleSet.pairwise_hits` — the hits are all there, each once
  and in order;
* `LineLint.RuleSet.map_report?_hits` — a scan reports the hits;
* `LineLint.Matcher.scan_reports_hits` — **a scan reports every occurrence once, and in order**.
-/

import LineLint.Proofs.Pattern.Occurrences
import LineLint.Proofs.Scan.Memo

set_option relaxedAutoImplicit false
set_option autoImplicit false

namespace LineLint

/-! ### Hits -/

/-- Where in a text which rule occurs. -/
structure Hit where
  /-- The number of the line, from one. -/
  line : Nat
  /-- The place of the rule in its rule set. -/
  rule : Nat
  span : Pattern.Span
  deriving DecidableEq

namespace Hit

/-- The order of hits: by the line, then by the rule, then by the span. -/
def Before (a b : Hit) : Prop :=
  a.line < b.line ∨ a.line = b.line ∧ (a.rule < b.rule ∨ a.rule = b.rule ∧ a.span.Before b.span)

/-- The rule at the place of the hit applies, and the span is one of its occurrences in the line. -/
def Occurs (set : RuleSet) (language : Option String) (text : String) (hit : Hit) : Prop :=
  ∃ number line c, hit.line = number + 1 ∧ (Text.lines text)[number]? = some line ∧
    set.rules[hit.rule]? = some c ∧ c.rule.appliesTo language = true ∧
    hit.span ∈ Pattern.occurrences line.toArray c.pattern

/-- The issue of a hit: the place of the hit, and what the rule says. -/
def report? (set : RuleSet) (source : String) (hit : Hit) : Option Issue :=
  (set.rules[hit.rule]?).map fun c =>
    { source := source
      line := .number hit.line
      column := .number (hit.span.start + 1)
      message := c.rule.message
      severity := c.rule.severity
      ruleId := c.rule.id
      fixable := c.rule.fixable }

theorem Before.ne {a b : Hit} (h : a.Before b) : a ≠ b := by
  rintro rfl
  rcases h with h | ⟨-, h | ⟨-, -, h | ⟨-, h, h'⟩⟩⟩
  · omega
  · omega
  · omega
  · exact h' h

end Hit

/-! ### The hits of a line -/

/-- The hits of some rules in a line, the first of which has the given place. -/
def ruleHits (language : Option String) (number : Nat) (line : List Char) :
    Nat → List CompiledRule → List Hit
  | _, [] => []
  | index, c :: rest =>
    (if c.rule.appliesTo language then
      (Pattern.occurrences line.toArray c.pattern).map fun span => ⟨number, index, span⟩
    else []) ++ ruleHits language number line (index + 1) rest

section Line

variable {language : Option String} {number index : Nat} {line : List Char}

theorem mem_ruleHits {rules : List CompiledRule} {hit : Hit} :
    hit ∈ ruleHits language number line index rules ↔
      hit.line = number ∧ ∃ place c, hit.rule = index + place ∧ rules[place]? = some c ∧
        c.rule.appliesTo language = true ∧
        hit.span ∈ Pattern.occurrences line.toArray c.pattern := by
  induction rules generalizing index with
  | nil => simp [ruleHits]
  | cons c rules ih =>
      rw [ruleHits, List.mem_append, ih]
      constructor
      · rintro (h | ⟨hline, place, d, hplace, hd, happlies, hspan⟩)
        · split at h
          · next happlies =>
              obtain ⟨span, hspan, rfl⟩ := List.mem_map.1 h
              exact ⟨rfl, 0, c, rfl, rfl, happlies, hspan⟩
          · cases h
        · exact ⟨hline, place + 1, d, by omega, hd, happlies, hspan⟩
      · rintro ⟨hline, place, d, hplace, hd, happlies, hspan⟩
        cases place with
        | zero =>
            cases hd
            refine Or.inl ?_
            rw [if_pos happlies]
            refine List.mem_map.2 ⟨hit.span, hspan, ?_⟩
            rw [← hline]
            cases hit
            simp_all
        | succ place => exact Or.inr ⟨hline, place, d, by omega, hd, happlies, hspan⟩

theorem pairwise_ruleHits (rules : List CompiledRule) :
    (ruleHits language number line index rules).Pairwise Hit.Before := by
  induction rules generalizing index with
  | nil => exact List.Pairwise.nil
  | cons c rules ih =>
      rw [ruleHits, List.pairwise_append]
      -- within the first rule the spans decide, and between two rules their places
      refine ⟨?_, ih, fun a ha b hb => ?_⟩
      · split
        · have hfinds := Pattern.finds_occurrences line.toArray c.pattern
          have hbefore := (hfinds.pairwise_before (Nat.zero_le _)).2
          exact List.pairwise_map.2 (hbefore.imp fun h => Or.inr ⟨rfl, Or.inr ⟨rfl, h⟩⟩)
        · exact List.Pairwise.nil
      · obtain ⟨hline, place, -, hplace, -⟩ := mem_ruleHits.1 hb
        split at ha
        · obtain ⟨span, -, rfl⟩ := List.mem_map.1 ha
          exact Or.inr ⟨hline.symm, Or.inl (by simp only; omega)⟩
        · cases ha

/-- The issues of a line are those of its hits.  `rules` are the rules of the set from `index`
on. -/
theorem map_report?_ruleHits {set : RuleSet} (source : String) {rules : List CompiledRule}
    (hrules : ∀ place, rules[place]? = set.rules[index + place]?) :
    (ruleHits language number line index rules).map (Hit.report? set source) =
      (scanLine (rules.filter fun c => c.rule.appliesTo language) source number line).map some := by
  induction rules generalizing index with
  | nil => rfl
  | cons c rules ih =>
      have hfirst : set.rules[index]? = some c := (hrules 0).symm
      have hrest : ∀ place, rules[place]? = set.rules[index + 1 + place]? := fun place => by
        have h := hrules (place + 1)
        rwa [Nat.add_comm place, ← Nat.add_assoc, Nat.add_comm 1, List.getElem?_cons_succ] at h
      rw [ruleHits, List.map_append, ih hrest, List.filter_cons]
      split
      · simp [scanLine, Hit.report?, hfirst, issueAt, Function.comp_def]
      · rfl

end Line

/-! ### The hits of a text -/

namespace RuleSet

/-- The hits in some lines, the first of which has the given number. -/
def lineHits (set : RuleSet) (language : Option String) : Nat → List (List Char) → List Hit
  | _, [] => []
  | number, line :: rest =>
    ruleHits language number line 0 set.rules ++ lineHits set language (number + 1) rest

/-- The hits of a text; an empty text has no lines. -/
def hits (set : RuleSet) (language : Option String) (text : String) : List Hit :=
  if text.isEmpty then [] else lineHits set language 1 (Text.lines text)

variable {set : RuleSet} {language : Option String}

theorem mem_lineHits {number : Nat} {lines : List (List Char)} {hit : Hit} :
    hit ∈ lineHits set language number lines ↔
      ∃ place line, hit.line = number + place ∧ lines[place]? = some line ∧
        hit ∈ ruleHits language hit.line line 0 set.rules := by
  induction lines generalizing number with
  | nil => simp [lineHits]
  | cons line lines ih =>
      rw [lineHits, List.mem_append, ih]
      constructor
      · rintro (h | ⟨place, other, hline, hother, hmem⟩)
        · have hline := (mem_ruleHits.1 h).1
          exact ⟨0, line, hline, rfl, by rwa [hline]⟩
        · exact ⟨place + 1, other, by omega, hother, hmem⟩
      · rintro ⟨place, other, hline, hother, hmem⟩
        cases place with
        | zero =>
            cases hother
            exact Or.inl (by rwa [hline] at hmem)
        | succ place => exact Or.inr ⟨place, other, by omega, hother, hmem⟩

/-- The hits of a text are the occurrences of the rules that apply, in its lines. -/
theorem mem_hits {text : String} (htext : text ≠ "") {hit : Hit} :
    hit ∈ set.hits language text ↔ hit.Occurs set language text := by
  have hempty : text.isEmpty = false := by simpa using htext
  rw [hits, hempty, if_neg (by simp), mem_lineHits]
  constructor
  · rintro ⟨number, line, hline, hlines, hmem⟩
    obtain ⟨-, place, c, hplace, hc, happlies, hspan⟩ := mem_ruleHits.1 hmem
    refine ⟨number, line, c, by omega, hlines, ?_, happlies, hspan⟩
    rwa [hplace, Nat.zero_add]
  · rintro ⟨number, line, c, hline, hlines, hc, happlies, hspan⟩
    exact ⟨number, line, by omega, hlines,
      mem_ruleHits.2 ⟨rfl, hit.rule, c, by omega, hc, happlies, hspan⟩⟩

theorem pairwise_lineHits (number : Nat) (lines : List (List Char)) :
    (lineHits set language number lines).Pairwise Hit.Before := by
  induction lines generalizing number with
  | nil => exact List.Pairwise.nil
  | cons line lines ih =>
      rw [lineHits, List.pairwise_append]
      refine ⟨pairwise_ruleHits set.rules, ih (number + 1), fun a ha b hb => Or.inl ?_⟩
      have hline := (mem_ruleHits.1 ha).1
      obtain ⟨place, -, hline', -⟩ := mem_lineHits.1 hb
      omega

/-- The hits of a text are in order. -/
theorem pairwise_hits (set : RuleSet) (language : Option String) (text : String) :
    (set.hits language text).Pairwise Hit.Before := by
  unfold hits
  split
  · exact List.Pairwise.nil
  · exact pairwise_lineHits 1 (Text.lines text)

theorem map_report?_lineHits (source : String) (number : Nat) (lines : List (List Char)) :
    (lineHits set language number lines).map (Hit.report? set source) =
      (scanLines (set.applicable language) source number lines).map some := by
  induction lines generalizing number with
  | nil => rfl
  | cons line lines ih =>
      rw [lineHits, List.map_append, ih, scanLines, List.map_append,
        map_report?_ruleHits source (fun place => by rw [Nat.zero_add])]
      rfl

theorem scanLines_nil (source : String) (number : Nat) (lines : List (List Char)) :
    scanLines [] source number lines = [] := by
  induction lines generalizing number with
  | nil => rfl
  | cons line lines ih => simp [scanLines, scanLine, ih]

/-- A scan reports the hits of a text. -/
theorem map_report?_hits (set : RuleSet) (source text : String) (language : Option String) :
    (set.hits (chosenLanguage source language) text).map (Hit.report? set source) =
      (set.scan source text language).map some := by
  unfold hits RuleSet.scan scanWith
  by_cases hempty : text.isEmpty = true
  · simp [hempty]
  · rw [if_neg hempty, map_report?_lineHits]
    by_cases hnone : (set.applicable (chosenLanguage source language)).isEmpty = true
    · simp [List.isEmpty_iff.1 hnone, scanLines_nil]
    · simp [hempty, hnone]

end RuleSet

/-! ### Scans -/

/-- **A scan reports every occurrence once, and in order.**  An empty text has no issues.  The
issues of any other text are those of hits that differ, are in order, and are exactly the
occurrences of the rules that apply to the language, in the lines of the text.  The occurrences of
a rule in a line are what searching it again and again finds: they do not overlap, and there are at
most two for every character and one more. -/
theorem Matcher.scan_reports_hits {set : RuleSet} {matcher : Matcher}
    (h : matcher.Reachable set) (source text : String) (language : Option String) :
    (text = "" → (matcher.scan source text language).1 = []) ∧
      (text ≠ "" → ∃ hits : List Hit,
        (matcher.scan source text language).1.map some = hits.map (Hit.report? set source) ∧
        hits.Nodup ∧ hits.Pairwise Hit.Before ∧
        ∀ hit, hit ∈ hits ↔ hit.Occurs set (chosenLanguage source language) text) ∧
      ∀ c ∈ set.rules, ∀ line ∈ Text.lines text,
        Pattern.Finds line.toArray c.pattern false 0 (Pattern.occurrences line.toArray c.pattern) ∧
        Pattern.Orderly line.length (Pattern.occurrences line.toArray c.pattern) := by
  rw [h.scan_fst]
  refine ⟨?_, fun htext => ?_, fun c _ line _ => ?_⟩
  · rintro rfl
    rfl
  · have hpairwise := set.pairwise_hits (chosenLanguage source language) text
    exact ⟨_, (set.map_report?_hits source text language).symm, hpairwise.imp Hit.Before.ne,
      hpairwise, fun hit => RuleSet.mem_hits htext⟩
  · exact ⟨Pattern.finds_occurrences _ _, Pattern.orderly_occurrences line.toArray c.pattern⟩

/-- A rule that matches the empty span, after a scan of another text. -/
theorem Matcher.scan_reports_hits_empty_spans :
    let rule : Rule := { id := "x", pattern := "x*", message := "m", severity := "info" }
    let set : RuleSet :=
      ⟨[⟨rule, .repeated (.chars (Pattern.CharClass.literal {} 120)) 0 none .greedy⟩]⟩
    let matcher : Matcher := (Matcher.scan { rules := set } "a.py" "x" none).2
    matcher.Reachable set ∧ ∃ hits : List Hit,
      (matcher.scan "b.js" "axx\n\r" none).1.map some = hits.map (Hit.report? set "b.js") ∧
      hits.Nodup ∧ hits.Pairwise Hit.Before ∧
      ∀ hit, hit ∈ hits ↔ hit.Occurs set (some "js") "axx\n\r" := by
  intro rule set matcher
  have hreachable : matcher.Reachable set := .scan "a.py" "x" none .fresh
  exact ⟨hreachable, (scan_reports_hits hreachable "b.js" "axx\n\r" none).2.1 (by decide)⟩

end LineLint
