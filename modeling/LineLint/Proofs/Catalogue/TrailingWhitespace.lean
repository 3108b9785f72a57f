/-
**Blanks at the end of a line.**

The pattern of the built-in rule is a run of blanks with the end of the line behind it.  So a match
ends where the line ends and takes only blanks, and it can begin at every place of the blanks at the
end of the line; the search finds the one that begins first, which takes all of them, and nothing is
left behind it.

Main definitions:

* `LineLint.Catalogue.blanksAtEnd` — the pattern.

Main results:

* `LineLint.Catalogue.matches_blanksAtEnd_iff` — what the pattern matches;
* `LineLint.Catalogue.occurrences_blanksAtEnd` — its occurrences in a line;
* `LineLint.Matcher.scan_reports_trailing_whitespace` — **the rule reports the lines with blanks at
  their end, once each, at the first of these blanks**.
-/

import LineLint.Catalogue
import LineLint.Proofs.Pattern.Exhaustive
import LineLint.Proofs.Scan.Joined
import Mathlib.Data.List.DropRight

set_option relaxedAutoImplicit false
set_option autoImplicit false

namespace LineLint

namespace Catalogue

open Pattern

/-- The class of blanks. -/
def blanks : CharClass := ⟨false, false, false, [.ofKind .space false false]⟩

/-- A run of blanks with the end of the line behind it. -/
def blanksAtEnd : Pattern :=
  .seq (.repeated (.chars blanks) 1 none .greedy) (.anchor (.lineEnd false))

theorem blanks_holds (c : Char) : blanks.holds c = Text.isBlank c := by
  simp [blanks, CharClass.holds, CharItem.holds, Kind.holds, foldChar]

/-! ### Matches -/

/-- All characters of a line from a place on are blank. -/
def BlankFrom (line : List Char) (i : Nat) : Prop := ∀ c ∈ line.drop i, Text.isBlank c = true

theorem runs_blanks_iff (cs : List Char) (i : Nat) :
    Runs cs.toArray blanks i cs.length ↔ BlankFrom cs i := by
  constructor
  · intro h c hc
    obtain ⟨m, hm, rfl⟩ := List.mem_iff_getElem.1 hc
    rw [List.length_drop] at hm
    obtain ⟨c, hget, hholds⟩ := h (i + m) (by omega) (by omega)
    rw [List.getElem?_toArray, List.getElem?_eq_getElem (by omega)] at hget
    cases hget
    rw [List.getElem_drop, ← blanks_holds]
    exact hholds
  · intro h m hle hlt
    refine ⟨cs[m], by simp [hlt], ?_⟩
    rw [blanks_holds]
    refine h _ (List.mem_iff_getElem.2 ⟨m - i, by rw [List.length_drop]; omega, ?_⟩)
    rw [List.getElem_drop]
    congr 1
    omega

/-- The end of a line that has no line feed is at its end only. -/
theorem lineEnd_at_iff {line : List Char} (hline : '\n' ∉ line) (i : Nat) :
    (Anchor.lineEnd false).At line.toArray i ↔ i = line.length := by
  refine ⟨?_, Or.inl⟩
  rintro (h | ⟨h, -⟩)
  · exact h
  · exact absurd (List.mem_of_getElem? (by simpa using h)) hline

/-- The pattern matches what begins within the blanks at the end of a line and ends with it. -/
theorem matches_blanksAtEnd_iff {line : List Char} (hline : '\n' ∉ line) {i j : Nat} :
    Matches line.toArray blanksAtEnd i j ↔ i < j ∧ j = line.length ∧ BlankFrom line i := by
  constructor
  · intro h
    cases h with
    | seq hrun hend =>
        cases hend with
        | anchor hat =>
            obtain ⟨hlt, -, hruns⟩ := matches_repeated_chars_iff.1 hrun
            have hj := (lineEnd_at_iff hline j).1 hat
            rw [hj, runs_blanks_iff] at hruns
            exact ⟨hlt, hj, hruns⟩
  · rintro ⟨hlt, rfl, hblank⟩
    exact .seq (matches_repeated_chars_iff.2 ⟨hlt, by simp, (runs_blanks_iff line i).2 hblank⟩)
      (.anchor ((lineEnd_at_iff hline _).2 rfl))

/-! ### Occurrences -/

/-- The blanks at the end of a line begin where it would end without them. -/
theorem blankFrom_iff (line : List Char) (i : Nat) :
    BlankFrom line i ↔ (line.rdropWhile Text.isBlank).length ≤ i := by
  constructor
  · intro h
    have hblank : ∀ c ∈ (line.drop i).reverse, Text.isBlank c = true := fun c hc =>
      h c (List.mem_reverse.1 hc)
    have hsplit : line.rdropWhile Text.isBlank = (line.take i).rdropWhile Text.isBlank := by
      conv_lhs => rw [← List.take_append_drop i line]
      rw [List.rdropWhile, List.reverse_append, List.dropWhile_append_of_pos hblank]
      rfl
    rw [hsplit]
    exact ((List.rdropWhile_prefix _ _).length_le).trans (List.length_take_le _ _)
  · intro h c hc
    have hdrop : line.drop i = (line.rtakeWhile Text.isBlank).drop
        (i - (line.rdropWhile Text.isBlank).length) := by
      conv_lhs => rw [← List.rdropWhile_append_rtakeWhile (p := Text.isBlank) (l := line)]
      rw [List.drop_append, List.drop_eq_nil_of_le h, List.nil_append]
    exact List.mem_rtakeWhile_imp (List.mem_of_mem_drop (hdrop ▸ hc))

/-- There are blanks at the end of a line if its last character is one. -/
theorem length_rdropWhile_lt_iff (line : List Char) :
    (line.rdropWhile Text.isBlank).length < line.length ↔
      line.getLast?.any Text.isBlank = true := by
  rcases List.eq_nil_or_concat line with rfl | ⟨init, last, rfl⟩
  · simp
  · rw [List.concat_eq_append, List.rdropWhile_concat, List.getLast?_append]
    have hle := (List.rdropWhile_prefix Text.isBlank init).length_le
    split
    · next hlast => simpa [hlast] using Nat.lt_succ_of_le hle
    · next hlast => simpa using hlast

/-- The pattern occurs at most once in a line: where the blanks at the end of the line begin, if
there are any. -/
theorem occurrences_blanksAtEnd {line : List Char} (hline : '\n' ∉ line) :
    occurrences line.toArray blanksAtEnd =
      if line.getLast?.any Text.isBlank then
        [⟨(line.rdropWhile Text.isBlank).length, line.length⟩]
      else [] := by
  have hexhausts : Exhausts line.toArray blanksAtEnd (occurrences line.toArray blanksAtEnd) :=
    exhausts_occurrences _ rfl ⟨⟨trivial, by simp⟩, trivial⟩
  have hapart := (orderly_occurrences line.toArray blanksAtEnd).apart
  generalize occurrences line.toArray blanksAtEnd = spans at hexhausts hapart
  simp only [← length_rdropWhile_lt_iff]
  cases spans with
  | nil =>
      rw [if_neg]
      intro hlt
      refine hexhausts.nil_iff.1 rfl _ _ (Nat.le_of_lt hlt) (Nat.le_refl _) ?_
      exact (matches_blanksAtEnd_iff hline).2 ⟨hlt, rfl, (blankFrom_iff line _).2 (Nat.le_refl _)⟩
  | cons span spans =>
      obtain ⟨hlt, hstop, hblank⟩ :=
        (matches_blanksAtEnd_iff hline).1 (hexhausts.sound span List.mem_cons_self)
      have hle := (blankFrom_iff line _).1 hblank
      rw [if_pos (by omega)]
      -- a match can begin with the first of the blanks, so the first occurrence does
      have hfirst : span.start ≤ (line.rdropWhile Text.isBlank).length :=
        hexhausts.head_le span rfl _ _ ((matches_blanksAtEnd_iff hline).2
          ⟨by omega, rfl, (blankFrom_iff line _).2 (Nat.le_refl _)⟩)
      have hnone : spans = [] := by
        refine List.eq_nil_iff_forall_not_mem.2 fun other hother => ?_
        have hbehind := (List.pairwise_cons.1 hapart).1 other hother
        obtain ⟨hlt', hstop', -⟩ := (matches_blanksAtEnd_iff hline).1
          (hexhausts.sound other (List.mem_cons_of_mem _ hother))
        omega
      obtain ⟨start, stop⟩ := span
      obtain rfl : start = (line.rdropWhile Text.isBlank).length := Nat.le_antisymm hfirst hle
      rw [hnone, ← hstop]

/-- The built-in rule of that name is for all languages and has that pattern. -/
theorem blanksAtEnd_of_id {rule : Rule} (hrule : rule ∈ builtin)
    (hid : rule.id = "trailing-whitespace") {names : String → Option Nat} {pattern : Pattern}
    (hpattern : Pattern.parse rule.pattern names = .ok pattern) :
    rule.languages = none ∧ pattern = blanksAtEnd := by
  have hall : ∀ rule ∈ builtin, rule.id = "trailing-whitespace" →
      rule.languages = none ∧ rule.pattern = "\\s+$" := by
    decide
  obtain ⟨hlanguages, htext⟩ := hall rule hrule hid
  have hparse : Pattern.parse "\\s+$" names = .ok blanksAtEnd := rfl
  rw [htext, hparse] at hpattern
  exact ⟨hlanguages, (Except.ok.inj hpattern).symm⟩

end Catalogue

/-- **The rule reports the lines with blanks at their end, once each, at the first of these
blanks.**  It belongs to every language, and it finds the same issues in every rule set that has it,
whatever the matcher was used for before. -/
theorem Matcher.scan_reports_trailing_whitespace {rules : List Rule} {names : String → Option Nat}
    {set : RuleSet} {matcher : Matcher} {rule : Rule}
    (hset : RuleSet.ofRules rules names = .ok set) (h : matcher.Used set) (hrule : rule ∈ rules)
    (hbuiltin : rule ∈ Catalogue.builtin)
    (hid : rule.id = "trailing-whitespace") (source text : String) (language : Option String) :
    ((matcher.scan source text language).1.filter fun issue =>
        issue.ruleId == "trailing-whitespace") =
      ((Text.lines text).zipIdx 1).filterMap fun line =>
        if line.1.getLast?.any Text.isBlank then
          some
            { source := source
              line := .number line.2
              column := .number ((line.1.rdropWhile Text.isBlank).length + 1)
              message := rule.message
              severity := rule.severity
              ruleId := "trailing-whitespace"
              fixable := rule.fixable }
        else none := by
  have hmade := RuleSet.madeOf_of_ofRules hset
  obtain ⟨c, hc, rfl, -⟩ := RuleSet.exists_ofRules_singleton hset hrule
  obtain ⟨hlanguages, hpattern⟩ := Catalogue.blanksAtEnd_of_id hbuiltin hid (hmade.parsed c hc)
  have happlies : c.rule.appliesTo (chosenLanguage source language) = true := by
    simp [Rule.appliesTo, hlanguages]
  rw [(h.faithful.scan _ _ _).1]
  by_cases htext : text = ""
  · rw [htext]
    rfl
  · have hscan := hmade.filter_scan_ruleId hc happlies htext
    rw [hid] at hscan
    rw [hscan, List.filterMap_eq_flatMap_toList]
    refine List.flatMap_congr fun line hline => ?_
    have hfeed : '\n' ∉ line.1 :=
      Text.not_mem_of_mem_splitAt (List.fst_mem_of_mem_zipIdx hline)
    rw [hpattern, Catalogue.occurrences_blanksAtEnd hfeed]
    split
    · rw [← hid]
      rfl
    · rfl

/-- Blanks in the middle and at the end of lines, a carriage return and an ideographic space among
them, in a script that all built-in rules look at. -/
theorem Matcher.scan_reports_trailing_whitespace_in_script :
    let text := "a  b \t\r\n\n x\n\u3000"
    let rule : Rule :=
      { id := "trailing-whitespace"
        pattern := "\\s+$"
        message := "Trailing whitespace"
        severity := "info"
        fixable := true }
    ∃ set, RuleSet.ofRules Catalogue.builtin = .ok set ∧ rule ∈ Catalogue.builtin ∧
      ((Matcher.scan { rules := set } "a.js" text none).1.filter fun issue =>
          issue.ruleId == "trailing-whitespace") =
        [⟨"a.js", .number 1, .number 5, "Trailing whitespace", "info", "trailing-whitespace", true⟩,
          ⟨"a.js", .number 4, .number 1, "Trailing whitespace", "info", "trailing-whitespace",
            true⟩] := by
  intro text rule
  obtain ⟨set, hset⟩ : ∃ set, RuleSet.ofRules Catalogue.builtin = .ok set :=
    isOk_eq_true_iff.1 (by decide +kernel)
  have hrule : rule ∈ Catalogue.builtin := by decide
  refine ⟨set, hset, hrule, ?_⟩
  rw [scan_reports_trailing_whitespace hset .fresh hrule hrule rfl "a.js" text none]
  decide +kernel

end LineLint
