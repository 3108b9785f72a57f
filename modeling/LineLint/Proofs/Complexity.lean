/-
**The score counts the lines that branch.**

A line branches if one of the keywords stands somewhere in it with no word character right before
or right after it.  The pattern that the score searches for asks for word edges around a keyword;
because keywords are made of word characters, an edge in front of one says that no word character
stands there, and so does an edge behind it.

Main definitions:

* `LineLint.Complexity.StandsAlone` — a word stands at a place as a whole word;
* `LineLint.Complexity.Branches` — **a branching keyword stands in a line as a whole word**.

Main results:

* `LineLint.Complexity.edges_iff` — what the edges around a word say;
* `LineLint.Complexity.matches_branching_iff` — what the pattern of the score matches;
* `LineLint.Complexity.score_counts_branching_lines` — **the score is one more than the number of
  lines that branch**.
-/

import LineLint.Complexity
import LineLint.Proofs.Pattern.Texts
import LineLint.Proofs.Scan.Joined

set_option relaxedAutoImplicit false
set_option autoImplicit false

namespace LineLint

/-! ### Keywords that stand alone -/

namespace Complexity

open Pattern

/-- A word stands at a place, with no word character right before it and none right after it. -/
def StandsAlone (cs word : List Char) (i : Nat) : Prop :=
  word <+: cs.drop i ∧ (Text.charBefore cs i).any Text.isWord = false ∧
    cs[i + word.length]?.any Text.isWord = false

instance (cs word : List Char) (i : Nat) : Decidable (StandsAlone cs word i) :=
  inferInstanceAs (Decidable (_ ∧ _ ∧ _))

/-- A branching keyword stands alone somewhere in a line. -/
def Branches (cs : List Char) : Prop :=
  ∃ i ≤ cs.length, ∃ keyword ∈ ["if", "for", "while", "switch", "catch", "case"],
    StandsAlone cs keyword.toList i

instance : DecidablePred Branches := fun cs =>
  inferInstanceAs (Decidable (∃ i ≤ cs.length,
    ∃ keyword ∈ ["if", "for", "while", "switch", "catch", "case"], StandsAlone cs keyword.toList i))

/-- Around a word that is made of word characters, an edge says that the character outside is no
word character. -/
theorem edges_iff {cs word : List Char} {i : Nat} (hne : word ≠ [])
    (hword : word.all Text.isWord = true) (h : word <+: cs.drop i) :
    (Anchor.wordEdge false).At cs.toArray i ∧
        (Anchor.wordEdge false).At cs.toArray (i + word.length) ↔
      (Text.charBefore cs i).any Text.isWord = false ∧
        cs[i + word.length]?.any Text.isWord = false := by
  have hlength : 0 < word.length := List.length_pos_iff.2 hne
  have hinside (m : Nat) (hm : m < word.length) : cs[i + m]?.any Text.isWord = true := by
    obtain ⟨rest, hrest⟩ := h
    have hget : cs[i + m]? = some word[m] := by
      calc cs[i + m]? = (cs.drop i)[m]? := List.getElem?_drop.symm
        _ = word[m]? := by rw [← hrest, List.getElem?_append_left hm]
        _ = some word[m] := List.getElem?_eq_getElem hm
    have hchar := List.all_eq_true.1 hword word[m] (List.getElem_mem hm)
    exact (Option.any_eq_true _ _).2 ⟨word[m], hget, hchar⟩
  have hfirst : cs[i]?.any Text.isWord = true := hinside 0 hlength
  have hlast : (Text.charBefore cs (i + word.length)).any Text.isWord = true := by
    obtain ⟨count, hcount⟩ := Nat.exists_eq_succ_of_ne_zero (Nat.ne_of_gt hlength)
    rw [hcount, Nat.add_succ, Text.charBefore]
    exact hinside count (by omega)
  rw [Anchor.At, Anchor.At, wordBefore_iff, wordAfter_iff, wordBefore_iff, wordAfter_iff,
    iff_true_right hfirst, iff_true_left hlast, Bool.not_eq_true, Bool.not_eq_true]

theorem keyword_chars {keyword : String} (h : keyword ∈ keywords) :
    keyword.toList ≠ [] ∧ keyword.toList.all Text.isWord = true := by
  revert keyword
  decide +kernel

/-- The pattern of the score matches the keywords that stand alone. -/
theorem matches_branching_iff {cs : List Char} {i j : Nat} :
    Matches cs.toArray branching i j ↔
      ∃ keyword ∈ keywords, j = i + keyword.toList.length ∧ StandsAlone cs keyword.toList i := by
  have hseq : Matches cs.toArray branching i j ↔ (Anchor.wordEdge false).At cs.toArray i ∧
      Matches cs.toArray (Pattern.oneOf (keywords.map Pattern.ofText)) i j ∧
      (Anchor.wordEdge false).At cs.toArray j := by
    simp only [branching, ofList, matches_seq_iff, matches_anchor_iff]
    constructor
    · rintro ⟨_, ⟨rfl, hfirst⟩, _, hword, rfl, hlast⟩
      exact ⟨hfirst, hword, hlast⟩
    · rintro ⟨hfirst, hword, hlast⟩
      exact ⟨i, ⟨rfl, hfirst⟩, j, hword, rfl, hlast⟩
  rw [hseq, matches_oneOf_iff (by simp [keywords])]
  simp only [List.mem_map, exists_exists_and_eq_and, matches_ofText_iff]
  constructor
  · rintro ⟨hfirst, ⟨keyword, hmem, rfl, hprefix⟩, hlast⟩
    obtain ⟨hne, hword⟩ := keyword_chars hmem
    exact ⟨keyword, hmem, rfl, hprefix, (edges_iff hne hword hprefix).1 ⟨hfirst, hlast⟩⟩
  · rintro ⟨keyword, hmem, rfl, hprefix, houtside⟩
    obtain ⟨hne, hword⟩ := keyword_chars hmem
    obtain ⟨hfirst, hlast⟩ := (edges_iff hne hword hprefix).2 houtside
    exact ⟨hfirst, ⟨keyword, hmem, rfl, hprefix⟩, hlast⟩

/-- The search of the score finds something in the lines that branch. -/
theorem occursIn_branching_iff (cs : List Char) :
    Pattern.occursIn cs.toArray branching = true ↔ Branches cs := by
  have hregular : branching.regular = true := by decide +kernel
  have hbounds : branching.InOrder := by
    simp [branching, keywords, ofText, ofList, oneOf, InOrder]
  rw [occursIn_iff _ hregular hbounds]
  simp only [matches_branching_iff, List.size_toArray]
  constructor
  · rintro ⟨i, j, hle, hsize, keyword, hmem, -, halone⟩
    exact ⟨i, by omega, keyword, hmem, halone⟩
  · rintro ⟨i, hi, keyword, hmem, halone⟩
    refine ⟨i, i + keyword.toList.length, by omega, ?_, keyword, hmem, rfl, halone⟩
    have hlength := halone.1.length_le
    rw [List.length_drop] at hlength
    omega

-- a keyword at the end or at the front of a longer word does not stand alone
example : ¬Branches "specif = iffy".toList ∧ Branches "specif = (if".toList := by decide +kernel

/-- **The score counts the lines that branch.**  It is one more than the number of lines in which a
branching keyword stands alone; so it is at least one and at most one more than the number of lines,
and the scores of two texts, one below the other, add up but for one. -/
theorem score_counts_branching_lines (text : String) :
    score text = 1 + ((Text.lines text).filter fun line => Branches line).length ∧
      1 ≤ score text ∧
      score text ≤ 1 + (Text.lines text).length ∧
      ∀ below, score (text ++ "\n" ++ below) + 1 = score text + score below := by
  have hcount (text : String) :
      score text = 1 + ((Text.lines text).filter fun line => Branches line).length := by
    rw [score, List.filter_congr]
    intro line _
    rw [Bool.eq_iff_iff, occursIn_branching_iff, decide_eq_true_iff]
  have hle := List.length_filter_le (fun line => decide (Branches line)) (Text.lines text)
  refine ⟨hcount text, ?_, ?_, fun below => ?_⟩
  · rw [hcount]
    omega
  · rw [hcount]
    omega
  · rw [hcount, hcount, hcount, lines_joined, List.filter_append, List.length_append]
    omega

end Complexity

end LineLint
