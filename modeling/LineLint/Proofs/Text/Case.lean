/-
**What lower-casing can make of a text.**

Every row of the table of lower-case forms moves its code points to places of characters, and none
of these places comes before the small letters.  So lower-casing a text makes no sign that comes
before the small letters, such as a dot or a slash, from anything but that sign itself.

Main results:

* `LineLint.Text.lowerCode_eq_or` — a code point stays where it is or moves to the small letters
  and what comes after them;
* `LineLint.Text.mem_or_le_of_mem_lower` — **so does every character of a text**;
* `LineLint.Text.lower_eq_empty_iff` — only the empty text is lower-cased to the empty one.
-/

import LineLint.Proofs.Text.Pieces
import LineLint.Text.Case

set_option relaxedAutoImplicit false
set_option autoImplicit false

namespace LineLint.Text

/-! ### Code points -/

theorem CaseRow.bounds_of_covers {row : CaseRow} {code : Nat} (h : row.covers code = true) :
    row.first ≤ code ∧ code ≤ row.last := by
  rw [covers, Bool.and_eq_true, Bool.and_eq_true, decide_eq_true_iff, decide_eq_true_iff] at h
  exact h.1

/-- The rows move to places of characters, none of which comes before `a`. -/
theorem bounds_of_mem_lowerRows {row : CaseRow} (h : row ∈ lowerRows) :
    97 ≤ row.first + row.shift ∧
      (row.last + row.shift < 0xd800 ∨
        0xdfff < row.first + row.shift ∧ row.last + row.shift < 0x110000) := by
  revert row
  decide +kernel

/-- A code point stays where it is, or moves to a character from `a` on. -/
theorem lowerCode_eq_or (code : Nat) :
    lowerCode code = code ∨ 97 ≤ lowerCode code ∧ (lowerCode code).isValidChar := by
  rw [lowerCode, caseForm]
  split
  · exact Or.inl rfl
  · next row hrow =>
    split
    · next hcovers =>
      obtain ⟨hfirst, hlast⟩ := CaseRow.bounds_of_covers hcovers
      obtain ⟨hleast, hvalid⟩ := bounds_of_mem_lowerRows (List.mem_of_find?_eq_some hrow)
      right
      rw [Nat.isValidChar]
      omega
    · exact Or.inl rfl

/-! ### Characters and texts -/

theorem lowerBetween_ne_nil (before : List Char) (c : Char) (after : List Char) :
    lowerBetween before c after ≠ [] := by
  rw [lowerBetween]
  split
  · simp
  · split
    · split <;> simp
    · simp

theorem eq_or_le_of_mem_lowerBetween {before after : List Char} {c d : Char}
    (h : d ∈ lowerBetween before c after) : d = c ∨ 97 ≤ d.toNat := by
  rw [lowerBetween] at h
  split at h
  · rcases List.mem_pair.1 h with rfl | rfl
    · exact Or.inr (by decide)
    · exact Or.inr (by decide)
  · split at h
    · split at h
      · obtain rfl := List.mem_singleton.1 h
        exact Or.inr (by decide)
      · obtain rfl := List.mem_singleton.1 h
        exact Or.inr (by decide)
    · obtain rfl := List.mem_singleton.1 h
      rcases lowerCode_eq_or c.toNat with hsame | ⟨hleast, hvalid⟩
      · rw [hsame, Char.ofNat_toNat]
        exact Or.inl rfl
      · rw [Utf8.toNat_ofNat_of_valid hvalid]
        exact Or.inr hleast

theorem mem_or_le_of_mem_lowerAfter {before cs : List Char} {d : Char}
    (h : d ∈ lowerAfter before cs) : d ∈ cs ∨ 97 ≤ d.toNat := by
  induction cs generalizing before with
  | nil => cases h
  | cons c rest ih =>
      rw [lowerAfter] at h
      rcases List.mem_append.1 h with h | h
      · rcases eq_or_le_of_mem_lowerBetween h with rfl | hle
        · exact Or.inl List.mem_cons_self
        · exact Or.inr hle
      · rcases ih h with hmem | hle
        · exact Or.inl (List.mem_cons_of_mem c hmem)
        · exact Or.inr hle

/-- **A character of a lower-cased text is one of the text's own, or comes from `a` on.** -/
theorem mem_or_le_of_mem_lower {text : String} {d : Char} (h : d ∈ (lower text).toList) :
    d ∈ text.toList ∨ 97 ≤ d.toNat := by
  rw [lower, String.toList_ofList] at h
  exact mem_or_le_of_mem_lowerAfter h

theorem lower_eq_empty_iff {text : String} : lower text = "" ↔ text = "" := by
  constructor
  · intro h
    rw [lower, ← String.toList_inj, String.toList_ofList] at h
    rw [← String.toList_inj]
    cases hcs : text.toList with
    | nil => rfl
    | cons c rest =>
        rw [hcs, lowerAfter] at h
        exact absurd (List.append_eq_nil_iff.1 h).1 (lowerBetween_ne_nil [] c rest)
  · rintro rfl
    rfl

end LineLint.Text
