/-
**Lines are scanned on their own.**

A scan carries nothing from one line to the next but the number of the line: no place in a line, no
anchor and no rule is affected by the lines around it.  So if one text stands below another, with a
line feed between them, the issues are those that the two texts have alone, the second ones as many
lines further down as the first text has.

Main definitions:

* `LineLint.Coordinate.plus`, `LineLint.Issue.lowered` — a coordinate, and an issue, further down.

Main results:

* `LineLint.scanLines_append`, `LineLint.scanLines_add` — lines after others, and lines with other
  numbers;
* `LineLint.RuleSet.scan_eq_flatMap` — a text is scanned line by line;
* `LineLint.RuleSet.MadeOf.filter_scan_ruleId`, `LineLint.Matcher.Used.filter_scan_ruleId`,
  `LineLint.Matcher.Used.filter_scan_isOf` — the issues of one rule, line by line;
* `LineLint.RuleSet.scan_joined` — two texts, one below the other;
* `LineLint.Matcher.scan_joins_texts` — **the same for matchers, whatever they were used for**.
-/

import LineLint.Proofs.Lint.Schedules
import LineLint.Proofs.Scan.Completeness
import LineLint.Proofs.Scan.Independence

set_option relaxedAutoImplicit false
set_option autoImplicit false

namespace LineLint

/-- A coordinate that is further down; a truth value counts as one or zero. -/
def Coordinate.plus (count : Nat) : Coordinate → Coordinate
  | .number value => .number (value + count)
  | .truth value => .number ((if value then 1 else 0) + count)

/-- An issue as many lines further down; nothing else about it changes. -/
def Issue.lowered (count : Nat) (issue : Issue) : Issue :=
  { issue with line := issue.line.plus count }

variable {rules : List CompiledRule} {source : String}

/-! ### Lines -/

/-- The number of a line goes into its issues, and nowhere else. -/
theorem scanLine_add (number count : Nat) (line : List Char) :
    scanLine rules source (number + count) line =
      (scanLine rules source number line).map (Issue.lowered count) := by
  have hissue (rule : Rule) (span : Pattern.Span) :
      issueAt source (number + count) rule span =
        (issueAt source number rule span).lowered count := by
    simp [issueAt, Issue.lowered, Coordinate.plus]
  simp only [scanLine, List.map_flatMap, List.map_map]
  refine List.flatMap_congr fun c _ => List.map_congr_left fun span _ => ?_
  rw [Function.comp_apply, hissue]

/-- Lines whose numbers begin later have the same issues, further down. -/
theorem scanLines_add (number count : Nat) (lines : List (List Char)) :
    scanLines rules source (number + count) lines =
      (scanLines rules source number lines).map (Issue.lowered count) := by
  induction lines generalizing number with
  | nil => rfl
  | cons line lines ih =>
      rw [scanLines, scanLines, List.map_append, scanLine_add, ← ih, Nat.add_right_comm]

/-- Lines that come after others only have other numbers. -/
theorem scanLines_append (number : Nat) (first second : List (List Char)) :
    scanLines rules source number (first ++ second) =
      scanLines rules source number first ++
        scanLines rules source (number + first.length) second := by
  induction first generalizing number with
  | nil => rfl
  | cons line first ih =>
      have hnumber : number + 1 + first.length = number + (line :: first).length := by
        rw [List.length_cons]
        omega
      rw [List.cons_append, scanLines, scanLines, ih, hnumber, List.append_assoc]

/-- Lines are scanned one by one, each with its number. -/
theorem scanLines_eq_flatMap (number : Nat) (lines : List (List Char)) :
    scanLines rules source number lines =
      (lines.zipIdx number).flatMap fun line => scanLine rules source line.2 line.1 := by
  induction lines generalizing number with
  | nil => rfl
  | cons line lines ih => rw [scanLines, ih, List.zipIdx_cons, List.flatMap_cons]

/-- A text that is not empty is scanned line by line. -/
theorem RuleSet.scan_eq_flatMap (set : RuleSet) (source : String) (language : Option String)
    {text : String} (htext : text ≠ "") :
    set.scan source text language = ((Text.lines text).zipIdx 1).flatMap fun line =>
      scanLine (set.applicable (chosenLanguage source language)) source line.2 line.1 := by
  have hempty : text.isEmpty = false := by simpa using htext
  rw [RuleSet.scan, scanWith_eq, hempty, ← scanLines_eq_flatMap]
  rfl

/-- The issues of one rule that applies to a text are those of its occurrences, line by line. -/
theorem RuleSet.MadeOf.filter_scan_ruleId {catalogue : List Rule} {set : RuleSet}
    {names : String → Option Nat} (h : set.MadeOf catalogue names) {c : CompiledRule}
    (hc : c ∈ set.rules) {language : Option String}
    (happlies : c.rule.appliesTo (chosenLanguage source language) = true) {text : String}
    (htext : text ≠ "") :
    ((set.scan source text language).filter fun issue => issue.ruleId == c.rule.id) =
      ((Text.lines text).zipIdx 1).flatMap fun line =>
        (Pattern.occurrences line.1.toArray c.pattern).map (issueAt source line.2 c.rule) := by
  have hkeeping : set.keeping (· == c.rule.id) = ⟨[c]⟩ := congrArg RuleSet.mk (h.filter_id hc)
  have happlicable : (RuleSet.mk [c]).applicable (chosenLanguage source language) = [c] := by
    simp [RuleSet.applicable, happlies]
  rw [set.filter_scan_eq_scan_keeping (· == c.rule.id), hkeeping,
    RuleSet.scan_eq_flatMap _ source language htext, happlicable]
  simp only [scanLine, List.flatMap_cons, List.flatMap_nil, List.append_nil]

section OneRule

variable {catalogue : List Rule} {names : String → Option Nat} {set : RuleSet} {matcher : Matcher}
  {rule : Rule} {pattern : Pattern} {language : Option String}

/-- A rule that applies to a text, and finds nothing in an empty line, has the issues of its
occurrences in the lines, whatever else is in the rule set and whatever the matcher was used for. -/
theorem Matcher.Used.filter_scan_ruleId (h : matcher.Used set)
    (hset : RuleSet.ofRules catalogue names = .ok set) (hrule : rule ∈ catalogue)
    (hpattern : Pattern.parse rule.pattern names = .ok pattern)
    (hempty : Pattern.occurrences #[] pattern = [])
    (happlies : rule.appliesTo (chosenLanguage source language) = true) (text : String) :
    ((matcher.scan source text language).1.filter fun issue => issue.ruleId == rule.id) =
      ((Text.lines text).zipIdx 1).flatMap fun line =>
        (Pattern.occurrences line.1.toArray pattern).map (issueAt source line.2 rule) := by
  have hmade := RuleSet.madeOf_of_ofRules hset
  obtain ⟨c, hc, rfl, -⟩ := RuleSet.exists_ofRules_singleton hset hrule
  have hparsed : c.pattern = pattern := Except.ok.inj ((hmade.parsed c hc).symm.trans hpattern)
  rw [(h.faithful.scan _ _ _).1, ← hparsed]
  by_cases htext : text = ""
  · have hlines : (Text.lines "").zipIdx 1 = [([], 1)] := rfl
    rw [htext, hlines, List.flatMap_singleton, hparsed, hempty]
    rfl
  · exact hmade.filter_scan_ruleId hc happlies htext

/-- In one line, it has the issues of its occurrences there. -/
theorem Matcher.Used.filter_scan_isOf (h : matcher.Used set)
    (hset : RuleSet.ofRules catalogue names = .ok set) (hrule : rule ∈ catalogue)
    (hpattern : Pattern.parse rule.pattern names = .ok pattern)
    (hempty : Pattern.occurrences #[] pattern = [])
    (happlies : rule.appliesTo (chosenLanguage source language) = true) {text : String}
    {number : Nat} {line : List Char} (hline : (Text.lines text)[number]? = some line) :
    (matcher.scan source text language).1.filter (Issue.isOf rule.id (number + 1)) =
      (Pattern.occurrences line.toArray pattern).map (issueAt source (number + 1) rule) := by
  have hmade := RuleSet.madeOf_of_ofRules hset
  obtain ⟨c, hc, rfl, -⟩ := RuleSet.exists_ofRules_singleton hset hrule
  have hparsed : c.pattern = pattern := Except.ok.inj ((hmade.parsed c hc).symm.trans hpattern)
  rw [(h.faithful.scan _ _ _).1, ← hparsed]
  by_cases htext : text = ""
  · have hlines : Text.lines "" = [[]] := rfl
    have hnil : line = [] := by
      rw [htext, hlines] at hline
      exact List.mem_singleton.1 (List.mem_of_getElem? hline)
    rw [htext, hnil, hparsed, hempty]
    rfl
  · exact hmade.filter_scan htext hc happlies hline

end OneRule

/-! ### Texts -/

/-- A line feed between two texts keeps their lines apart. -/
theorem lines_joined (above below : String) :
    Text.lines (above ++ "\n" ++ below) = Text.lines above ++ Text.lines below := by
  have hchars : (above ++ "\n" ++ below).toList = above.toList ++ '\n' :: below.toList := by
    simp [String.toList_append]
  rw [Text.lines, hchars, Text.splitAt_append_cons, Text.lines, Text.lines]

/-- Two texts, one below the other, have the issues of the upper one and then those of the lower
one, further down.  An empty text has no lines when it stands alone, but has one here. -/
theorem RuleSet.scan_joined (set : RuleSet) (source : String) (language : Option String)
    {above below : String} (habove : above ≠ "") (hbelow : below ≠ "") :
    set.scan source (above ++ "\n" ++ below) language =
      set.scan source above language ++
        (set.scan source below language).map (Issue.lowered (above.toList.count '\n' + 1)) := by
  have hjoined : above ++ "\n" ++ below ≠ "" := by simp
  have hlines (text : String) (htext : text ≠ "") : set.scan source text language =
      scanLines (set.applicable (chosenLanguage source language)) source 1 (Text.lines text) := by
    have hempty : text.isEmpty = false := by simpa using htext
    rw [RuleSet.scan, scanWith_eq, hempty]
    rfl
  have hcount : (Text.lines above).length = above.toList.count '\n' + 1 :=
    Text.length_splitAt '\n' above.toList
  rw [hlines _ hjoined, hlines _ habove, hlines _ hbelow, lines_joined, scanLines_append,
    scanLines_add, hcount]

/-- **Lines are scanned on their own.**  If one text stands below another, with a line feed between
them, the issues are those of the upper text alone, and then those of the lower text alone, as many
lines further down as the upper one has.  The three scans may be made by matchers that were used for
anything before. -/
theorem Matcher.scan_joins_texts {set : RuleSet} {matcher upper lower : Matcher}
    (h : matcher.Used set) (hupper : upper.Used set) (hlower : lower.Used set) (source : String)
    (language : Option String) (above below : String) (habove : above ≠ "") (hbelow : below ≠ "") :
    (matcher.scan source (above ++ "\n" ++ below) language).1 =
      (upper.scan source above language).1 ++
        (lower.scan source below language).1.map
          (Issue.lowered (above.toList.count '\n' + 1)) := by
  rw [(h.faithful.scan _ _ _).1, (hupper.faithful.scan _ _ _).1, (hlower.faithful.scan _ _ _).1]
  exact set.scan_joined source language habove hbelow

/-- A rule with anchors at both ends and one that finds empty spans, in texts with empty lines at
their ends.  One matcher scans the lower text before it scans the other two. -/
theorem Matcher.scan_joins_texts_at_empty_lines :
    let whole : Rule := { id := "w", pattern := "^x$", message := "m", severity := "info" }
    let runs : Rule := { id := "y", pattern := "y*", message := "n", severity := "error" }
    let literal (code : Nat) : Pattern := .chars (Pattern.CharClass.literal {} code)
    let set : RuleSet :=
      ⟨[⟨whole, .ofList [.anchor (.lineStart false), literal 120, .anchor (.lineEnd false)]⟩,
        ⟨runs, .repeated (literal 121) 0 none .greedy⟩]⟩
    let fresh : Matcher := { rules := set }
    let used : Matcher := (fresh.scan "a" "\nx" none).2
    let place (issue : Issue) : Coordinate × Coordinate × String :=
      (issue.line, issue.column, issue.ruleId)
    RuleSet.ofRules [whole, runs] = .ok set ∧ fresh.Used set ∧ used.Used set ∧
      (used.scan "a" "x\n\n\nx" none).1 =
        (used.scan "a" "x\n" none).1 ++ (fresh.scan "a" "\nx" none).1.map (Issue.lowered 2) ∧
      ((used.scan "a" "x\n\n\nx" none).1.filter fun issue => issue.ruleId == "w").map place =
        [(.number 1, .number 1, "w"), (.number 4, .number 1, "w")] := by
  intro whole runs literal set fresh used place
  have hset : RuleSet.ofRules [whole, runs] = .ok set := by decide +kernel
  have hused : used.Used set := .scan "a" "\nx" none .fresh
  have hjoins : (used.scan "a" "x\n\n\nx" none).1 =
      (used.scan "a" "x\n" none).1 ++ (fresh.scan "a" "\nx" none).1.map (Issue.lowered 2) :=
    scan_joins_texts hused hused .fresh "a" none "x\n" "\nx" (by decide) (by decide)
  exact ⟨hset, .fresh, hused, hjoins, by decide +kernel⟩

end LineLint
