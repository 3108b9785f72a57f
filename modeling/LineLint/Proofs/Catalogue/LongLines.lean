/-
**Long lines.**

The pattern of the built-in rule is a greedy repetition, at least 120 times, of anything but a
carriage return.  So the rule reports the maximal runs of such characters that are long enough, each
once.  A carriage return at the end of a line belongs to no run: with it or without it, a line has
the same runs, and so a text has the same issues whichever way its lines end.

Main definitions:

* `LineLint.Catalogue.longStretch` — the pattern;
* `LineLint.Text.withoutReturn` — a line without a carriage return at its end;
* `LineLint.Text.withReturns` — a text with a carriage return at the end of every line but the last.

Main results:

* `LineLint.Catalogue.occurrences_longStretch` — the occurrences of the pattern;
* `LineLint.Text.map_lines_withReturns` — what does not see a carriage return at the end of a line
  does not tell the two texts apart;
* `LineLint.Matcher.scan_reports_long_runs` — **the rule reports the maximal runs of at least 120
  characters other than carriage returns, each once and at its first character**.
-/

import LineLint.Catalogue
import LineLint.Proofs.Pattern.MaximalRuns
import LineLint.Proofs.Scan.Joined

set_option relaxedAutoImplicit false
set_option autoImplicit false

namespace LineLint

/-! ### Carriage returns at the ends of lines -/

namespace Text

/-- A line without a carriage return at its end. -/
def withoutReturn (line : List Char) : List Char :=
  if line.getLast? = some '\r' then line.dropLast else line

/-- The characters with a carriage return in front of every line feed. -/
def addReturns : List Char → List Char
  | [] => []
  | c :: rest => if c = '\n' then '\r' :: '\n' :: addReturns rest else c :: addReturns rest

/-- A text with a carriage return in front of every line feed. -/
def withReturns (text : String) : String := String.ofList (addReturns text.toList)

/-- What does not see a carriage return at the end of a line sees the same lines. -/
theorem map_splitAt_addReturns {β : Type} {f : List Char → β}
    (hf : ∀ line, f (line ++ ['\r']) = f line) (cs : List Char) :
    (splitAt '\n' (addReturns cs)).map f = (splitAt '\n' cs).map f := by
  induction cs generalizing f with
  | nil => rfl
  | cons c rest ih =>
      by_cases hc : c = '\n'
      · have hcut : splitAt '\n' ('\r' :: '\n' :: addReturns rest) =
            ([] ++ ['\r']) :: splitAt '\n' (addReturns rest) :=
          splitAt_append_cons '\n' ['\r'] (addReturns rest)
        have hcut' : splitAt '\n' ('\n' :: rest) = [] :: splitAt '\n' rest :=
          splitAt_append_cons '\n' [] rest
        rw [addReturns, if_pos hc, hc, hcut, hcut', List.map_cons, List.map_cons, hf, ih hf]
      · -- the first lines begin with the same character, and what follows it is seen the same way
        have hhead := ih (f := fun line => f (c :: line)) fun line => hf (c :: line)
        have htail := ih hf
        rw [addReturns, if_neg hc, splitAt, splitAt, if_neg hc, if_neg hc]
        cases hlong : splitAt '\n' (addReturns rest) with
        | nil => exact absurd hlong (splitAt_ne_nil _ _)
        | cons first others =>
            cases hshort : splitAt '\n' rest with
            | nil => exact absurd hshort (splitAt_ne_nil _ _)
            | cons first' others' =>
                rw [hlong, hshort] at hhead htail
                exact List.cons_eq_cons.2
                  ⟨(List.cons_eq_cons.1 hhead).1, (List.cons_eq_cons.1 htail).2⟩

theorem map_lines_withReturns {β : Type} {f : List Char → β}
    (hf : ∀ line, f (line ++ ['\r']) = f line) (text : String) :
    (lines (withReturns text)).map f = (lines text).map f := by
  rw [lines, withReturns, String.toList_ofList]
  exact map_splitAt_addReturns hf text.toList

/-- Without a carriage return within a line, none is left without the one at its end. -/
theorem not_mem_withoutReturn {line : List Char} (hinner : '\r' ∉ line.dropLast) :
    '\r' ∉ withoutReturn line := by
  unfold withoutReturn
  split
  · exact hinner
  · next hlast =>
      rcases List.eq_nil_or_concat line with rfl | ⟨before, c, rfl⟩
      · exact List.not_mem_nil
      · rw [List.concat_eq_append, List.dropLast_concat] at hinner
        rw [List.concat_eq_append, List.getLast?_concat] at hlast
        rw [List.concat_eq_append, List.mem_append, List.mem_singleton]
        rintro (hmem | rfl)
        · exact hinner hmem
        · exact hlast rfl

end Text

/-! ### The pattern and its occurrences -/

namespace Catalogue

open Pattern

/-- Everything but the characters that end lines. -/
def noLineEnd : CharClass := ⟨true, false, false, [.single 13, .single 10]⟩

/-- The maximal runs of at least 120 characters other than carriage returns. -/
def longRuns (line : List Char) : List Span :=
  (Text.runs (· != '\r') line).filter fun run => decide (run.start + 120 ≤ run.stop)

/-- At least 120 characters, as many as possible. -/
def longStretch : Pattern := .repeated (.chars noLineEnd) 120 none .greedy

theorem noLineEnd_holds {c : Char} (hc : c ≠ '\n') : noLineEnd.holds c = (c != '\r') := by
  have hfeed : (CharItem.single 10).holds c = (c == '\n') := CharItem.single_holds '\n' c
  have hreturn : (CharItem.single 13).holds c = (c == '\r') := CharItem.single_holds '\r' c
  simp [noLineEnd, CharClass.holds, foldChar, hfeed, hreturn, hc, bne]

/-- The pattern occurs at the maximal runs of at least 120 characters other than carriage
returns. -/
theorem occurrences_longStretch {cs : List Char} (hline : '\n' ∉ cs) :
    occurrences cs.toArray longStretch = longRuns cs := by
  have hruns : Text.runs noLineEnd.holds cs = Text.runs (· != '\r') cs := by
    refine Text.runs_congr fun i => ?_
    cases hget : cs[i]? with
    | none => rfl
    | some c =>
        refine noLineEnd_holds fun hc => hline ?_
        rw [← hc]
        exact List.mem_of_getElem? hget
  rw [longStretch, occurrences_greedy _ _ (by decide), hruns, longRuns]

/-- A carriage return at the end of a line makes no difference. -/
theorem longRuns_append_return (line : List Char) : longRuns (line ++ ['\r']) = longRuns line := by
  have hruns : Text.runs (· != '\r') (line ++ ['\r']) = Text.runs (· != '\r') line :=
    Text.runs_append_singleton rfl
  rw [longRuns, hruns, longRuns]

/-- A line without a carriage return within it is one run, if it is long enough. -/
theorem longRuns_of_inner {line : List Char} (hinner : '\r' ∉ line.dropLast) :
    longRuns line =
      if 120 ≤ (Text.withoutReturn line).length then [⟨0, (Text.withoutReturn line).length⟩]
      else [] := by
  have hall : ∀ c ∈ Text.withoutReturn line, (c != '\r') = true := by
    intro c hc
    rw [bne_iff_ne]
    rintro rfl
    exact Text.not_mem_withoutReturn hinner hc
  have hline : longRuns line = longRuns (Text.withoutReturn line) := by
    unfold Text.withoutReturn
    split
    · next hlast =>
        obtain ⟨before, rfl⟩ := List.getLast?_eq_some_iff.1 hlast
        rw [List.dropLast_concat, longRuns_append_return]
    · rfl
  rw [hline]
  generalize Text.withoutReturn line = body at hall
  by_cases hempty : body = []
  · rw [hempty]
    rfl
  · rw [longRuns, Text.runs_of_forall hall hempty]
    simp [List.filter_singleton]

/-- The built-in rule of that name is for all languages and has that pattern. -/
theorem longStretch_of_id {rule : Rule} (hrule : rule ∈ builtin)
    (hid : rule.id = "max-line-length") (names : String → Option Nat) :
    rule.languages = none ∧ Pattern.parse rule.pattern names = .ok longStretch := by
  have hall : ∀ rule ∈ builtin, rule.id = "max-line-length" →
      rule.languages = none ∧ rule.pattern = "[^\\r\\n]\x7b120,\x7d" := by
    decide
  obtain ⟨hlanguages, htext⟩ := hall rule hrule hid
  rw [htext]
  exact ⟨hlanguages, rfl⟩

end Catalogue

/-- **The rule reports the maximal runs of at least 120 characters other than carriage returns, each
once and at its first character**, and nothing else.  So a line without a carriage return within it
has one issue, in its first column, if it has at least 120 characters without the carriage return at
its end, and else none; and a carriage return in front of every line feed changes nothing. -/
theorem Matcher.scan_reports_long_runs {rules : List Rule} {names : String → Option Nat}
    {set : RuleSet} {matcher : Matcher} {rule : Rule}
    (hset : RuleSet.ofRules rules names = .ok set) (h : matcher.Used set) (hrule : rule ∈ rules)
    (hbuiltin : rule ∈ Catalogue.builtin)
    (hid : rule.id = "max-line-length") (source text : String) (language : Option String) :
    let reported (text : String) : List Issue :=
      (matcher.scan source text language).1.filter fun issue => issue.ruleId == "max-line-length"
    let issue (number column : Nat) : Issue :=
      { source := source
        line := .number number
        column := .number column
        message := rule.message
        severity := rule.severity
        ruleId := "max-line-length"
        fixable := rule.fixable }
    reported text =
        (((Text.lines text).zipIdx 1).flatMap fun line =>
          (Catalogue.longRuns line.1).map fun run => issue line.2 (run.start + 1)) ∧
      (∀ (number : Nat) (line : List Char), (Text.lines text)[number]? = some line →
        '\r' ∉ line.dropLast →
        (reported text).filter (fun issue => issue.line == .number (number + 1)) =
          if 120 ≤ (Text.withoutReturn line).length then [issue (number + 1) 1] else []) ∧
      reported (Text.withReturns text) = reported text := by
  intro reported issue
  obtain ⟨hlanguages, hpattern⟩ := Catalogue.longStretch_of_id hbuiltin hid names
  have happlies : rule.appliesTo (chosenLanguage source language) = true := by
    simp [Rule.appliesTo, hlanguages]
  have hissue (number : Nat) (span : Pattern.Span) :
      issueAt source number rule span = issue number (span.start + 1) := by
    simp [issueAt, issue, hid]
  have hreported (text : String) : reported text =
      ((Text.lines text).zipIdx 1).flatMap fun line =>
        (Catalogue.longRuns line.1).map fun run => issue line.2 (run.start + 1) := by
    have hscan := h.filter_scan_ruleId hset hrule hpattern rfl happlies text
    rw [hid] at hscan
    refine hscan.trans (List.flatMap_congr fun line hline => ?_)
    have hfeed : '\n' ∉ line.1 := Text.not_mem_of_mem_splitAt (List.fst_mem_of_mem_zipIdx hline)
    rw [Catalogue.occurrences_longStretch hfeed]
    exact List.map_congr_left fun run _ => hissue line.2 run
  refine ⟨hreported text, ?_, ?_⟩
  · intro number line hline hinner
    have hfeed : '\n' ∉ line := Text.not_mem_of_mem_splitAt (List.mem_of_getElem? hline)
    have hscan := h.filter_scan_isOf hset hrule hpattern rfl happlies hline
    rw [Catalogue.occurrences_longStretch hfeed, Catalogue.longRuns_of_inner hinner] at hscan
    have hfilter : (reported text).filter (fun issue => issue.line == .number (number + 1)) =
        (matcher.scan source text language).1.filter (Issue.isOf rule.id (number + 1)) := by
      rw [hid]
      exact Issue.filter_isOf "max-line-length" (number + 1) _
    rw [hfilter, hscan]
    split
    · exact congrArg (fun issue => [issue]) (hissue (number + 1) _)
    · rfl
  · -- the issues of a line depend on its runs alone
    have hmap (text : String) : reported text =
        (((Text.lines text).map Catalogue.longRuns).zipIdx 1).flatMap fun line =>
          line.1.map fun run => issue line.2 (run.start + 1) := by
      rw [hreported, List.zipIdx_map, List.flatMap_map]
      rfl
    rw [hmap, hmap, Text.map_lines_withReturns Catalogue.longRuns_append_return]

/-- A line at the bound with a carriage return behind it, one below the bound, and a run behind a
carriage return within its line, in a script that all built-in rules look at. -/
theorem Matcher.scan_reports_long_runs_at_bound :
    let first : List Char := List.replicate 120 'a' ++ ['\r']
    let second : List Char := List.replicate 119 'b'
    let third : List Char := 'c' :: '\r' :: List.replicate 121 'd'
    let text : String := String.ofList (first ++ '\n' :: second ++ '\n' :: third)
    let rule : Rule :=
      { id := "max-line-length"
        pattern := "[^\\r\\n]\x7b120,\x7d"
        message := "Line exceeds 120 characters"
        severity := "info" }
    let issue (number column : Nat) : Issue :=
      ⟨"a.js", .number number, .number column, "Line exceeds 120 characters", "info",
        "max-line-length", false⟩
    ∃ set, RuleSet.ofRules Catalogue.builtin = .ok set ∧ rule ∈ Catalogue.builtin ∧
      let reported (text : String) : List Issue :=
        (Matcher.scan { rules := set } "a.js" text none).1.filter fun issue =>
          issue.ruleId == "max-line-length"
      reported text = [issue 1 1, issue 3 3] ∧
        (Text.lines text)[0]? = some first ∧ '\r' ∉ first.dropLast ∧
        (reported text).filter (fun issue => issue.line == .number ((0 : Nat) + 1)) = [issue 1 1] ∧
        reported (Text.withReturns text) = [issue 1 1, issue 3 3] := by
  intro first second third text rule issue
  obtain ⟨set, hset⟩ : ∃ set, RuleSet.ofRules Catalogue.builtin = .ok set :=
    isOk_eq_true_iff.1 (by decide +kernel)
  have hrule : rule ∈ Catalogue.builtin := by decide
  have hlines : Text.lines text = [first, second, third] := by
    rw [Text.lines, String.toList_ofList]
    decide +kernel
  have hfirst : (Text.lines text)[0]? = some first := by rw [hlines]; rfl
  have hinner : '\r' ∉ first.dropLast := by decide +kernel
  obtain ⟨hruns, hline, hreturns⟩ :=
    scan_reports_long_runs hset .fresh hrule hrule rfl "a.js" text none
  rw [hlines] at hruns
  have htwo := hruns.trans (show _ = [issue 1 1, issue 3 3] by decide +kernel)
  have hone := (hline 0 first hfirst hinner).trans (if_pos (by decide +kernel))
  exact ⟨set, hset, hrule, htwo, hfirst, hinner, hone, hreturns.trans htwo⟩

end LineLint
