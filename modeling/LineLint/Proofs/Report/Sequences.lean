/-
**Removing control sequences from a text.**

A control sequence is an escape, a bracket, any number of parameters and a letter.  Its letter is
the first character behind the bracket that is no parameter, so at most one sequence begins at a
place, and no sequence begins within another one.  What is left of a text is therefore what stands
before, between and behind the occurrences of one pattern.

Two texts that are put together lose what each of them loses on its own if no sequence can go over
from the first into the second: the first has no escape at all, or the second begins with a
character that cannot stand inside a sequence.

Main definitions:

* `LineLint.Report.IsSequence` — the control sequences;
* `LineLint.Report.controlSequence` — the pattern that describes them;
* `LineLint.Report.without` — a text without some spans;
* `LineLint.Report.Stops` — a text does not begin inside a sequence.

Main results:

* `LineLint.Report.sequenceLength?_eq_some_iff` — what is found at the front of a text;
* `LineLint.Report.describes_controlSequence` — the pattern describes the control sequences;
* `LineLint.Report.plain_eq_without` — **removing control sequences is removing the occurrences of
  the pattern**;
* `LineLint.Report.plain_append_of_clean`, `LineLint.Report.plain_append_of_stops`,
  `LineLint.Report.plain_join` — texts that are put together.
-/

import LineLint.Pattern.Reader
import LineLint.Proofs.Pattern.Texts
import LineLint.Report.Style
import LineLint.Text.Split
import Mathlib

set_option relaxedAutoImplicit false
set_option autoImplicit false

namespace LineLint.Report

open Pattern

variable {cs rest word : List Char}

/-! ### Control sequences -/

/-- A control sequence: an escape, a bracket, parameters and a letter. -/
def IsSequence (word : List Char) : Prop :=
  ∃ parameters last, word = escapeChar :: '[' :: (parameters ++ [last]) ∧
    (∀ c ∈ parameters, isParameter c = true) ∧ last.isAlpha = true

@[simp] theorem escapeChar_eq_iff {c : Char} : escapeChar = c ↔ c.toNat = 27 := by
  rw [← Char.toNat_inj, eq_comm]
  rfl

theorem isParameter_of_isAlpha {c : Char} (h : c.isAlpha = true) : isParameter c = false := by
  rw [Bool.eq_false_iff]
  intro hparameter
  simp only [isParameter, Bool.or_eq_true, beq_iff_eq] at hparameter
  rcases hparameter with (rfl | rfl) | hdigit
  · exact absurd h (by decide)
  · exact absurd h (by decide)
  · simp only [Char.isAlpha, Char.isUpper, Char.isLower, Char.isDigit, Bool.or_eq_true,
      decide_eq_true_eq, UInt32.le_iff_toNat_le, ge_iff_le, Bool.and_eq_true] at h hdigit
    simp at h hdigit
    omega

/-- What is found at the front of a text is a control sequence. -/
theorem isSequence_of_sequenceLength? {length : Nat} (h : sequenceLength? cs = some length) :
    ∃ word, IsSequence word ∧ word <+: cs ∧ length = word.length := by
  unfold sequenceLength? at h
  split at h
  · next first behind =>
      split at h
      · next hescape =>
          dsimp only at h
          split at h
          · next last rest hlast =>
              split at h
              · next hletter =>
                  cases h
                  have hsplit : behind.takeWhile isParameter ++ last :: rest = behind := by
                    have htake := List.prefix_iff_eq_take.1
                      (List.takeWhile_prefix (l := behind) isParameter)
                    calc behind.takeWhile isParameter ++ last :: rest
                        = behind.take (behind.takeWhile isParameter).length ++
                            behind.drop (behind.takeWhile isParameter).length := by
                          rw [← htake, hlast]
                      _ = behind := List.take_append_drop _ _
                  refine ⟨_, ⟨behind.takeWhile isParameter, last, rfl,
                    fun c hc => List.mem_takeWhile_imp hc, hletter⟩, ⟨rest, ?_⟩, by simp⟩
                  simp [hescape, hsplit]
              · cases h
          · cases h
      · cases h
  · cases h

/-- A control sequence at the front of a text is found. -/
theorem IsSequence.sequenceLength?_eq (h : IsSequence word) (hstands : word <+: cs) :
    sequenceLength? cs = some word.length := by
  obtain ⟨parameters, last, rfl, hparameters, hletter⟩ := h
  obtain ⟨rest, rfl⟩ := hstands
  have htake : (parameters ++ last :: rest).takeWhile isParameter = parameters := by
    rw [List.takeWhile_append_of_pos hparameters, List.takeWhile_cons_of_neg]
    · exact List.append_nil _
    · simp [isParameter_of_isAlpha hletter]
  simp [sequenceLength?, htake, hletter]

theorem sequenceLength?_eq_some_iff {length : Nat} :
    sequenceLength? cs = some length ↔
      ∃ word, IsSequence word ∧ word <+: cs ∧ length = word.length := by
  refine ⟨isSequence_of_sequenceLength?, ?_⟩
  rintro ⟨word, hword, hstands, rfl⟩
  exact hword.sequenceLength?_eq hstands

theorem IsSequence.length_pos (h : IsSequence word) : 0 < word.length := by
  obtain ⟨parameters, last, rfl, -⟩ := h
  exact Nat.succ_pos _

/-! ### The pattern -/

/-- The characters that can stand between the bracket and the letter. -/
def parameterClass : CharClass := ⟨false, false, false, [.single 59, .single 63, .range 48 57]⟩

/-- The letters of either case. -/
def letterClass : CharClass := ⟨false, false, false, [.range 97 122, .range 65 90]⟩

/-- The pattern of a control sequence. -/
def controlSequence : Pattern :=
  .seq (.chars ⟨false, false, false, [.single 27]⟩)
    (.seq (.chars ⟨false, false, false, [.single 91]⟩)
      (.seq (.repeated (.chars parameterClass) 0 none .greedy) (.chars letterClass)))

theorem parse_controlSequence : Pattern.parse "\\x1b\\[[;?0-9]*[a-zA-Z]" = .ok controlSequence :=
  rfl

theorem parameterClass_holds (c : Char) : parameterClass.holds c = isParameter c := by
  have hsemicolon : (CharItem.single 59).holds c = (c == ';') := CharItem.single_holds ';' c
  have hquestion : (CharItem.single 63).holds c = (c == '?') := CharItem.single_holds '?' c
  have hdigit : (CharItem.range 48 57).holds c = c.isDigit := rfl
  simp [parameterClass, CharClass.holds, foldChar, hsemicolon, hquestion, hdigit, isParameter,
    Bool.or_assoc]

theorem letterClass_holds (c : Char) : letterClass.holds c = c.isAlpha := by
  have hlower : (CharItem.range 97 122).holds c = c.isLower := rfl
  have hupper : (CharItem.range 65 90).holds c = c.isUpper := by
    rw [CharItem.holds, ← Bool.decide_and]
    rfl
  simp [letterClass, CharClass.holds, foldChar, hlower, hupper, Char.isAlpha, Bool.or_comm]

/-- The class of a single character has no other one. -/
theorem single_holds_iff (c d : Char) :
    CharClass.holds ⟨false, false, false, [.single c.toNat]⟩ d = true ↔ d = c := by
  simp [CharClass.holds, foldChar, CharItem.single_holds]

/-- The pattern describes the control sequences. -/
theorem describes_controlSequence : Describes controlSequence IsSequence := by
  have hescape (c : Char) := single_holds_iff escapeChar c
  have hbracket (c : Char) := single_holds_iff '[' c
  have h := (describes_chars ⟨false, false, false, [.single escapeChar.toNat]⟩).seq
    ((describes_chars ⟨false, false, false, [.single '['.toNat]⟩).seq
      ((describes_any_chars parameterClass .greedy).seq (describes_chars letterClass)))
  refine h.congr fun word => ?_
  simp only [hescape, hbracket, parameterClass_holds, letterClass_holds]
  constructor
  · rintro ⟨_, _, rfl, ⟨_, rfl, rfl⟩, _, _, rfl, ⟨_, rfl, rfl⟩, parameters, _, rfl, hparameters,
      last, rfl, hletter⟩
    exact ⟨parameters, last, rfl, hparameters, hletter⟩
  · rintro ⟨parameters, last, rfl, hparameters, hletter⟩
    exact ⟨[escapeChar], _, rfl, ⟨_, rfl, rfl⟩, ['['], _, rfl, ⟨_, rfl, rfl⟩, parameters, [last],
      rfl, hparameters, last, rfl, hletter⟩

/-! ### One step of the removal -/

theorem plainFrom_eq_drop (skip : Nat) (cs : List Char) :
    plainFrom skip cs = plainFrom 0 (cs.drop skip) := by
  induction skip generalizing cs with
  | zero => rfl
  | succ skip ih =>
      cases cs with
      | nil => rfl
      | cons c rest => exact ih rest

/-- A character at which no sequence begins is kept. -/
theorem plainFrom_of_none {c : Char} (h : sequenceLength? (c :: rest) = none) :
    plainFrom 0 (c :: rest) = c :: plainFrom 0 rest := by
  rw [plainFrom, h]

/-- A sequence is passed over. -/
theorem plainFrom_of_some {length : Nat} (h : sequenceLength? cs = some length) :
    plainFrom 0 cs = plainFrom 0 (cs.drop length) := by
  obtain ⟨word, hword, -, rfl⟩ := isSequence_of_sequenceLength? h
  obtain ⟨count, hcount⟩ := Nat.exists_eq_add_one_of_ne_zero (Nat.ne_of_gt hword.length_pos)
  cases cs with
  | nil => cases h
  | cons c rest =>
      have hskip : plainFrom 0 (c :: rest) = plainFrom (word.length - 1) rest := by
        rw [plainFrom, h]
      rw [hskip, hcount, plainFrom_eq_drop]
      rfl

/-- Characters at which no sequence begins are kept. -/
theorem plainFrom_gap {count : Nat} (h : ∀ i < count, sequenceLength? (cs.drop i) = none) :
    plainFrom 0 cs = cs.take count ++ plainFrom 0 (cs.drop count) := by
  induction count generalizing cs with
  | zero => rfl
  | succ count ih =>
      cases cs with
      | nil => rfl
      | cons c rest =>
          rw [plainFrom_of_none (h 0 (Nat.succ_pos _)),
            ih fun i hi => h (i + 1) (Nat.succ_lt_succ hi)]
          rfl

/-! ### The removal of all occurrences -/

/-- What stands from a place on before, between and behind some spans. -/
def without (cs : List Char) : Nat → List Span → List Char
  | start, [] => cs.drop start
  | start, span :: rest => (cs.take span.start).drop start ++ without cs span.stop rest

/-- Where the pattern does not match, no sequence begins. -/
theorem sequenceLength?_of_gap {moving : Bool} {start stop i : Nat}
    (h : Gap cs.toArray controlSequence moving start stop) (hi : start ≤ i) (hlt : i < stop) :
    sequenceLength? (cs.drop i) = none := by
  cases hfound : sequenceLength? (cs.drop i) with
  | none => rfl
  | some length =>
      obtain ⟨word, hword, hstands, rfl⟩ := isSequence_of_sequenceLength? hfound
      obtain ⟨-, -, hempty⟩ := h i (i + word.length) hi hlt
        ((describes_controlSequence cs i _).2 ⟨word, hword, hstands, rfl⟩)
      have hpos := hword.length_pos
      omega

/-- From the place of a search on, what it and the next ones find is removed. -/
theorem plainFrom_of_finds {moving : Bool} {start : Nat} {spans : List Span}
    (hstart : start ≤ cs.length) (h : Finds cs.toArray controlSequence moving start spans) :
    plainFrom 0 (cs.drop start) = without cs start spans := by
  have hregular : controlSequence.regular = true := rfl
  have hbounds : controlSequence.InOrder := inOrder_of_parse parse_controlSequence
  induction h with
  | @done moving start hsearch =>
      have hgap := (Finds.done hsearch).gap_of_nil hregular
      have hkeep := @plainFrom_gap (cs.drop start) (cs.drop start).length fun i hi => by
        rw [List.drop_drop]
        rw [List.length_drop] at hi
        exact sequenceLength?_of_gap hgap (Nat.le_add_right _ _) (by simp; omega)
      rw [hkeep, List.take_length, List.drop_length]
      exact List.append_nil _
  | @next moving start span spans hsearch hafter ih =>
      have hgap := (Finds.next hsearch hafter).gap_of_cons hregular hstart
      obtain ⟨hle, -, hstop, -⟩ := from_of_search hstart hsearch
      have hfound := (leftmost_of_search hstart hsearch).1.found
      obtain ⟨word, hword, hstands, hlength⟩ := (describes_controlSequence cs _ _).1
        (matches_of_matchAt hregular hbounds hfound)
      have hkeep := @plainFrom_gap (cs.drop start) (span.start - start) fun i hi => by
        rw [List.drop_drop]
        exact sequenceLength?_of_gap hgap (Nat.le_add_right _ _) (by omega)
      have hspan : start + (span.start - start) = span.start := Nat.add_sub_of_le hle
      calc plainFrom 0 (cs.drop start)
          = (cs.drop start).take (span.start - start) ++ plainFrom 0 (cs.drop span.start) := by
            rw [hkeep, List.drop_drop, hspan]
        _ = (cs.take span.start).drop start ++ plainFrom 0 (cs.drop span.stop) := by
            rw [plainFrom_of_some (hword.sequenceLength?_eq hstands), List.drop_drop, hlength,
              List.drop_take]
        _ = without cs start (span :: spans) := by
            rw [ih (by simpa using hstop), without]

/-- **Removing control sequences is removing the occurrences of their pattern.** -/
theorem plain_eq_without (text : String) :
    plain text = String.ofList
      (without text.toList 0 (occurrences text.toList.toArray controlSequence)) := by
  rw [plain, ← plainFrom_of_finds (Nat.zero_le _) (finds_occurrences _ _)]
  rfl

/-! ### Texts that are put together -/

/-- A character that can stand in a control sequence, behind the escape. -/
def Continues (c : Char) : Prop := c = '[' ∨ isParameter c = true ∨ c.isAlpha = true

/-- A text that does not go on with a sequence. -/
def Stops (cs : List Char) : Prop := ∀ c ∈ cs.head?, ¬Continues c

@[simp] theorem stops_nil : Stops [] := by simp [Stops]

@[simp] theorem stops_cons {c : Char} : Stops (c :: cs) ↔ ¬Continues c := by simp [Stops]

theorem IsSequence.continues (h : IsSequence word) : ∀ c ∈ word.tail, Continues c := by
  obtain ⟨parameters, last, rfl, hparameters, hletter⟩ := h
  intro c hc
  rcases List.mem_cons.1 hc with rfl | hc
  · exact Or.inl rfl
  · rcases List.mem_append.1 hc with hc | hc
    · exact Or.inr (Or.inl (hparameters c hc))
    · rw [List.mem_singleton.1 hc]
      exact Or.inr (Or.inr hletter)

/-- A sequence that begins before a text that stops it has ended there. -/
theorem IsSequence.stands_before (hword : IsSequence word) (hne : cs ≠ []) (h : Stops rest)
    (hstands : word <+: cs ++ rest) : word <+: cs := by
  rcases List.prefix_or_prefix_of_prefix hstands (List.prefix_append cs rest) with hle | hover
  · exact hle
  · obtain ⟨behind, rfl⟩ := hover
    cases behind with
    | nil => simp
    | cons c behind =>
        -- the first character of what follows would be one inside the sequence
        obtain ⟨after, rfl⟩ := (List.prefix_append_right_inj cs).1 hstands
        have hc : c ∈ (cs ++ c :: behind).tail := by
          rw [List.tail_append_of_ne_nil hne]
          exact List.mem_append_right _ List.mem_cons_self
        exact absurd (hword.continues c hc) (h c rfl)

theorem sequenceLength?_append (hne : cs ≠ []) (h : Stops rest) :
    sequenceLength? (cs ++ rest) = sequenceLength? cs := by
  refine Option.ext fun length => ?_
  rw [sequenceLength?_eq_some_iff, sequenceLength?_eq_some_iff]
  constructor
  · rintro ⟨word, hword, hstands, rfl⟩
    exact ⟨word, hword, hword.stands_before hne h hstands, rfl⟩
  · rintro ⟨word, hword, hstands, rfl⟩
    exact ⟨word, hword, hstands.trans (List.prefix_append _ _), rfl⟩

theorem plainFrom_append (h : Stops rest) {skip : Nat} (hskip : skip ≤ cs.length) :
    plainFrom skip (cs ++ rest) = plainFrom skip cs ++ plainFrom 0 rest := by
  induction cs generalizing skip with
  | nil =>
      obtain rfl := Nat.le_zero.1 hskip
      rfl
  | cons c cs ih =>
      cases skip with
      | succ skip => exact ih (Nat.le_of_succ_le_succ hskip)
      | zero =>
          have hsame : sequenceLength? (c :: (cs ++ rest)) = sequenceLength? (c :: cs) :=
            sequenceLength?_append (List.cons_ne_nil c cs) h
          cases hfound : sequenceLength? (c :: cs) with
          | none =>
              rw [List.cons_append, plainFrom_of_none hfound,
                plainFrom_of_none (hsame.trans hfound), ih (Nat.zero_le _), List.cons_append]
          | some length =>
              obtain ⟨word, hword, hstands, rfl⟩ := isSequence_of_sequenceLength? hfound
              have hlength := hstands.length_le
              rw [List.cons_append, plainFrom, plainFrom, hsame, hfound]
              refine ih ?_
              rw [List.length_cons] at hlength
              omega

theorem plainFrom_append_of_clean (h : escapeChar ∉ cs) :
    plainFrom 0 (cs ++ rest) = cs ++ plainFrom 0 rest := by
  induction cs with
  | nil => rfl
  | cons c cs ih =>
      obtain ⟨hc, hcs⟩ := not_or.1 (mt List.mem_cons.2 h)
      have hnone : sequenceLength? (c :: (cs ++ rest)) = none := by
        cases hfound : sequenceLength? (c :: (cs ++ rest)) with
        | none => rfl
        | some length =>
            obtain ⟨_, ⟨_, _, rfl, -⟩, hstands, -⟩ := isSequence_of_sequenceLength? hfound
            exact absurd (List.cons_prefix_cons.1 hstands).1 hc
      rw [List.cons_append, plainFrom_of_none hnone, ih hcs, List.cons_append]

/-- A text without escapes is kept. -/
theorem plain_append_of_clean {text other : String} (h : escapeChar ∉ text.toList) :
    plain (text ++ other) = text ++ plain other := by
  rw [plain, String.toList_append, plainFrom_append_of_clean h, String.ofList_append,
    String.ofList_toList, plain]

/-- A text that is followed by one that goes on with no sequence loses what it loses on its own. -/
theorem plain_append_of_stops {text other : String} (h : Stops other.toList) :
    plain (text ++ other) = plain text ++ plain other := by
  rw [plain, String.toList_append, plainFrom_append h (Nat.zero_le _), String.ofList_append, plain,
    plain]

/-- A control sequence is removed, whatever follows it. -/
theorem plain_sequence_append {code : String} (h : ∀ c ∈ code.toList, isParameter c = true)
    (other : String) : plain (sequence code ++ other) = plain other := by
  have hword : IsSequence (sequence code).toList := ⟨code.toList, 'm', by simp [sequence], h, rfl⟩
  rw [plain, String.toList_append,
    plainFrom_of_some (hword.sequenceLength?_eq (List.prefix_append _ _)),
    List.drop_left, plain]

/-- Whether a text stops a sequence is decided by its first character. -/
theorem stops_append {text : String} (other : String) (hne : text ≠ "") (h : Stops text.toList) :
    Stops (text ++ other).toList := by
  intro c hc
  have hcs : text.toList ≠ [] := by simpa using hne
  rw [String.toList_append, List.head?_append_of_ne_nil _ hcs] at hc
  exact h c hc

/-- Lines lose what each of them loses on its own. -/
theorem plain_join (lines : List String) :
    plain (Text.join "\n" lines) = Text.join "\n" (lines.map plain) := by
  have hjoin (line next : String) (lines : List String) :
      Text.join "\n" (line :: next :: lines) =
        line ++ ("\n" ++ Text.join "\n" (next :: lines)) := by
    simp [Text.join, Text.joinChars, String.ofList_append]
  induction lines with
  | nil => rfl
  | cons line lines ih =>
      cases lines with
      | nil => simp [Text.join, Text.joinChars]
      | cons next lines =>
          have hstops : Stops ("\n" ++ Text.join "\n" (next :: lines)).toList := by
            simp [Continues, isParameter]
          have hclean : escapeChar ∉ "\n".toList := by simp
          rw [hjoin, plain_append_of_stops hstops, plain_append_of_clean hclean, ih]
          exact (hjoin _ _ _).symm

end LineLint.Report
