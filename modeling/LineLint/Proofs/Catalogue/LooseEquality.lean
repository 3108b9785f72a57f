/-
**Loose equality signs.**

The pattern of the built-in rule is two equality signs, with neither an equality sign nor an
exclamation mark right before them and no equality sign right after them.  Both conditions look at
the whole line, and not only at what a search has left of it; so the pattern matches at the maximal
runs of exactly two equality signs, but for those behind an exclamation mark, and no search begins
within a longer run.

Main definitions:

* `LineLint.Catalogue.looseEqualities` — the maximal runs that are reported;
* `LineLint.Catalogue.loosePair` — the pattern.

Main results:

* `LineLint.Catalogue.matchAt_loosePair_iff` — where the pattern matches;
* `LineLint.Catalogue.occurrences_loosePair` — its occurrences in a line;
* `LineLint.Matcher.scan_reports_loose_equalities` — **the rule reports the loose equality signs of
  a script, each once and at its first character, and no part of any other run**.
-/

import LineLint.Catalogue
import LineLint.Proofs.Pattern.MaximalRuns
import LineLint.Proofs.Scan.Joined

set_option relaxedAutoImplicit false
set_option autoImplicit false

namespace LineLint

namespace Catalogue

open Pattern

/-- The maximal runs of exactly two equality signs that do not follow an exclamation mark. -/
def looseEqualities (line : List Char) : List Span :=
  (Text.runs (· == '=') line).filter fun run =>
    decide (run.stop = run.start + 2 ∧ Text.charBefore line run.start ≠ some '!')

/-- The equality sign. -/
def equalitySign : CharClass := ⟨false, false, false, [.single 61]⟩

/-- The equality sign and the exclamation mark. -/
def strictSigns : CharClass := ⟨false, false, false, [.single 61, .single 33]⟩

/-- Two equality signs that are no part of another operator. -/
def loosePair : Pattern :=
  .seq (.lookBehind false 1 (.chars strictSigns))
    (.seq (.chars equalitySign)
      (.seq (.chars equalitySign) (.lookAhead false (.chars equalitySign))))

theorem equalitySign_holds : equalitySign.holds = (· == '=') := by
  funext c
  have hsign : (CharItem.single 61).holds c = (c == '=') := CharItem.single_holds '=' c
  simp [equalitySign, CharClass.holds, foldChar, hsign]

theorem any_strictSigns (c : Option Char) :
    c.any strictSigns.holds = (c.any (· == '=') || decide (c = some '!')) := by
  cases c with
  | none => rfl
  | some c =>
      have hsign : (CharItem.single 61).holds c = (c == '=') := CharItem.single_holds '=' c
      have hmark : (CharItem.single 33).holds c = (c == '!') := CharItem.single_holds '!' c
      simp [strictSigns, CharClass.holds, foldChar, hsign, hmark, beq_eq_decide]

/-! ### Matches and occurrences -/

/-- A maximal run of two characters, seen from the place at which it begins. -/
theorem isRun_two_iff {p : Char → Bool} {cs : List Char} {i : Nat} :
    Text.IsRun p cs ⟨i, i + 2⟩ ↔
      (Text.charBefore cs i).any p = false ∧ cs[i]?.any p = true ∧ cs[i + 1]?.any p = true ∧
        cs[i + 2]?.any p = false := by
  constructor
  · rintro ⟨-, hall, hbefore, hafter⟩
    exact ⟨hbefore, hall i (Nat.le_refl _) (by simp), hall (i + 1) (by simp) (by simp), hafter⟩
  · rintro ⟨hbefore, hfirst, hsecond, hafter⟩
    refine ⟨by simp, fun m hle hlt => ?_, hbefore, hafter⟩
    obtain rfl | rfl : m = i ∨ m = i + 1 := by
      simp only at hle hlt
      omega
    · exact hfirst
    · exact hsecond

/-- What comes of the pattern at a place: one condition after the other. -/
theorem matchAt_loosePair (cs : List Char) (moving : Bool) (i : Nat) :
    matchAt cs.toArray loosePair moving i =
      if (Text.charBefore cs i).any strictSigns.holds then none
      else if cs[i]?.any (· == '=') then
        if cs[i + 1]?.any (· == '=') then
          if cs[i + 2]?.any (· == '=') then none else some ⟨i, i + 2⟩
        else none
      else none := by
  have hmoved : (moving && i + 2 == i) = false := by simp
  have hseq (first second : Pattern) (rest : Rest) (place : Place) :
      run cs.toArray (.seq first second) rest place =
        run cs.toArray first (run cs.toArray second rest) place := rfl
  rw [matchAt, loosePair, hseq, run_not_behind, hseq, run_chars, hseq, run_chars, run_not_ahead,
    equalitySign_holds]
  simp only [Place.forward, Nat.add_assoc, Nat.reduceAdd, hmoved]
  split
  · rfl
  · split
    · split
      · split
        · rfl
        · rfl
      · rfl
    · rfl

/-- The pattern matches at the maximal runs of two equality signs that do not follow an exclamation
mark. -/
theorem matchAt_loosePair_iff {cs : List Char} {moving : Bool} {i : Nat} {span : Span} :
    matchAt cs.toArray loosePair moving i = some span ↔
      span = ⟨i, i + 2⟩ ∧ Text.IsRun (· == '=') cs ⟨i, i + 2⟩ ∧
        Text.charBefore cs i ≠ some '!' := by
  rw [matchAt_loosePair, isRun_two_iff, any_strictSigns]
  cases (Text.charBefore cs i).any (· == '=') with
  | true => simp
  | false =>
      cases cs[i]?.any (· == '=') with
      | false => simp
      | true =>
          cases cs[i + 1]?.any (· == '=') with
          | false => simp
          | true =>
              cases cs[i + 2]?.any (· == '=') with
              | true => simp
              | false => simp [eq_comm, and_comm]

/-- The pattern occurs at the loose equality signs. -/
theorem occurrences_loosePair (cs : List Char) :
    occurrences cs.toArray loosePair = looseEqualities cs := by
  refine occurrences_eq_filter_runs fun span => ?_
  rw [decide_eq_true_eq]
  constructor
  · intro hspan
    obtain ⟨moving, hmatch⟩ := exists_matchAt_of_mem_occurrences hspan
    obtain ⟨hends, hrun, hmark⟩ := matchAt_loosePair_iff.1 hmatch
    exact ⟨hends ▸ hrun, congrArg Span.stop hends, hmark⟩
  · rintro ⟨hrun, hstop, hmark⟩
    obtain ⟨start, stop⟩ := span
    obtain rfl : stop = start + 2 := hstop
    have hany := hrun.allOf start (Nat.le_refl _) hrun.start_lt_stop
    have hsize : start ≤ cs.toArray.size := Nat.le_of_lt (Text.lt_length_of_any hany)
    have hmatch (moving : Bool) :
        matchAt cs.toArray loosePair moving start = some ⟨start, start + 2⟩ :=
      matchAt_loosePair_iff.2 ⟨rfl, hrun, hmark⟩
    obtain ⟨other, hother, hle, hlt⟩ := exists_occurrence_covering hsize fun moving => by
      rw [hmatch moving]
      rfl
    -- the occurrence is a maximal run, too, and has the first sign in common with this one
    obtain ⟨moving, hfound⟩ := exists_matchAt_of_mem_occurrences hother
    obtain ⟨hends, hrun', -⟩ := matchAt_loosePair_iff.1 hfound
    rw [← hends] at hrun'
    have hsame := hrun'.eq_of_common hrun ⟨hle, hlt⟩ ⟨Nat.le_refl _, hrun.start_lt_stop⟩
    rw [← hsame]
    exact hother

/-- The built-in rule of that name is for scripts and has that pattern. -/
theorem loosePair_of_id {rule : Rule} (hrule : rule ∈ builtin) (hid : rule.id = "eqeqeq")
    (names : String → Option Nat) :
    rule.languages = some scriptLanguages ∧ Pattern.parse rule.pattern names = .ok loosePair := by
  have hall : ∀ rule ∈ builtin, rule.id = "eqeqeq" →
      rule.languages = some scriptLanguages ∧ rule.pattern = "(?<![=!])==(?!=)" := by
    decide
  obtain ⟨hlanguages, htext⟩ := hall rule hrule hid
  rw [htext]
  exact ⟨hlanguages, rfl⟩

end Catalogue

/-- **The rule reports the loose equality signs of a script, each once and at its first character,
and no part of any other run**: no issue of the rule points into a run of equality signs that has
another length or follows an exclamation mark. -/
theorem Matcher.scan_reports_loose_equalities {rules : List Rule} {names : String → Option Nat}
    {set : RuleSet} {matcher : Matcher} {rule : Rule}
    (hset : RuleSet.ofRules rules names = .ok set) (h : matcher.Used set) (hrule : rule ∈ rules)
    (hbuiltin : rule ∈ Catalogue.builtin)
    (hid : rule.id = "eqeqeq") (source text : String) (language : Option String)
    (hscript : ∃ script ∈ ["js", "ts", "jsx", "tsx"],
      chosenLanguage source language = some script) :
    let reported : List Issue :=
      (matcher.scan source text language).1.filter fun issue => issue.ruleId == "eqeqeq"
    reported =
        (((Text.lines text).zipIdx 1).flatMap fun line =>
          (Catalogue.looseEqualities line.1).map fun run =>
            { source := source
              line := .number line.2
              column := .number (run.start + 1)
              message := rule.message
              severity := rule.severity
              ruleId := "eqeqeq"
              fixable := rule.fixable }) ∧
      ∀ (number : Nat) (line : List Char), (Text.lines text)[number]? = some line →
        ∀ run ∈ Text.runs (· == '=') line,
          run.stop ≠ run.start + 2 ∨ Text.charBefore line run.start = some '!' →
          ∀ issue ∈ reported, issue.line = .number (number + 1) →
            ∀ column : Nat, run.start < column → column ≤ run.stop →
              issue.column ≠ .number column := by
  intro reported
  obtain ⟨hlanguages, hpattern⟩ := Catalogue.loosePair_of_id hbuiltin hid names
  have happlies : rule.appliesTo (chosenLanguage source language) = true := by
    obtain ⟨script, hmem, hlanguage⟩ := hscript
    unfold Rule.appliesTo
    rw [hlanguages, hlanguage]
    exact List.contains_iff_mem.2 hmem
  have hempty : Pattern.occurrences #[] Catalogue.loosePair = [] := rfl
  constructor
  · have hscan := h.filter_scan_ruleId hset hrule hpattern hempty happlies text
    rw [hid] at hscan
    refine hscan.trans (List.flatMap_congr fun line _ => ?_)
    rw [Catalogue.occurrences_loosePair]
    refine List.map_congr_left fun run _ => ?_
    rw [issueAt, hid]
  · intro number line hline run hrun hother issue hissue hnumber column hlt hle hcolumn
    have hscan := h.filter_scan_isOf hset hrule hpattern hempty happlies hline
    have hmem : issue ∈ (matcher.scan source text language).1.filter
        (Issue.isOf rule.id (number + 1)) := by
      rw [hid, ← Issue.filter_isOf]
      exact List.mem_filter.2 ⟨hissue, beq_iff_eq.2 hnumber⟩
    rw [hscan, Catalogue.occurrences_loosePair] at hmem
    obtain ⟨loose, hloose, rfl⟩ := List.mem_map.1 hmem
    obtain ⟨hloose, hkeep⟩ := List.mem_filter.1 hloose
    obtain ⟨hstop, hmark⟩ := of_decide_eq_true hkeep
    -- the issue and the run would have the first character of the issue in common
    have hstart : column = loose.start + 1 := by
      have hnumbers := Coordinate.number.inj hcolumn
      omega
    have hloose := Text.mem_runs_iff.1 hloose
    have hsame : loose = run := hloose.eq_of_common (Text.mem_runs_iff.1 hrun)
      (i := loose.start) ⟨Nat.le_refl _, hloose.start_lt_stop⟩ (by omega)
    rw [hsame] at hstop hmark
    exact hother.elim (fun hne => hne hstop) hmark

/-- Loose equality signs at both ends of a line and right behind each other's neighbours, strict
ones, and runs of three and four, in a script; the matcher has scanned another text before. -/
theorem Matcher.scan_reports_loose_equalities_among_strict :
    let rule : Rule :=
      { id := "eqeqeq"
        pattern := "(?<![=!])==(?!=)"
        message := "Use === instead of =="
        severity := "warning"
        languages := some ["js", "ts", "jsx", "tsx"]
        fixable := true }
    let set : RuleSet := ⟨[⟨rule, Catalogue.loosePair⟩]⟩
    let fresh : Matcher := { rules := set }
    let used : Matcher := (fresh.scan "a.py" "==" none).2
    let issue (number column : Int) : Issue :=
      ⟨"a.TSX", .number number, .number column, "Use === instead of ==", "warning", "eqeqeq", true⟩
    RuleSet.ofRules [rule] = .ok set ∧ used.Used set ∧ rule ∈ Catalogue.builtin ∧
      chosenLanguage "a.TSX" none = some "tsx" ∧
      let text : String := "== ===!== ==\n====\n= == !="
      let reported : List Issue :=
        (used.scan "a.TSX" text none).1.filter fun issue => issue.ruleId == "eqeqeq"
      reported = [issue 1 1, issue 1 11, issue 3 3] ∧
        (Text.lines text)[0]? = some "== ===!== ==".toList ∧
        ⟨3, 6⟩ ∈ Text.runs (· == '=') "== ===!== ==".toList ∧
        ∀ issue ∈ reported, issue.line = .number ((0 : Nat) + 1) →
          issue.column ≠ .number (5 : Nat) := by
  intro rule set fresh used issue
  have hset : RuleSet.ofRules [rule] = .ok set := by decide +kernel
  have hused : used.Used set := .scan "a.py" "==" none .fresh
  have hbuiltin : rule ∈ Catalogue.builtin := by decide
  have hlanguage : chosenLanguage "a.TSX" none = some "tsx" := by decide +kernel
  refine ⟨hset, hused, hbuiltin, hlanguage, ?_⟩
  intro text reported
  obtain ⟨hreported, hothers⟩ := scan_reports_loose_equalities hset hused List.mem_cons_self
    hbuiltin rfl "a.TSX" text none ⟨"tsx", by decide, hlanguage⟩
  have hfirst : (Text.lines text)[0]? = some "== ===!== ==".toList := by decide +kernel
  have hrun : ⟨3, 6⟩ ∈ Text.runs (· == '=') "== ===!== ==".toList := by decide +kernel
  refine ⟨hreported.trans (by decide +kernel), hfirst, hrun, fun issue hissue hnumber => ?_⟩
  exact hothers 0 _ hfirst _ hrun (Or.inl (by decide)) issue hissue hnumber 5 (by decide)
    (by decide)

end LineLint
