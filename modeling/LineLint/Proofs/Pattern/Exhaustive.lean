/-
**The occurrences of a regular pattern miss no match and invent none.**

Every occurrence is a match, the first one begins where the first match does, and between two
occurrences, as well as after the last one, no match begins.  The one exception is the place of an
occurrence that spans nothing: there it is itself a match that begins at its end, but nothing else
begins there.

Main definitions:

* `LineLint.Pattern.Gap` — a part of the line in which no match begins;
* `LineLint.Pattern.Exhausts` — **some spans miss no match and invent none**.

Main results:

* `LineLint.Pattern.matches_of_matchAt`, `LineLint.Pattern.empty_of_matchAt_eq_none` — a match at a
  place is found if there is one;
* `LineLint.Pattern.Finds.gap_of_cons`, `LineLint.Pattern.Finds.gap_of_nil` — searching again and
  again passes over no match;
* `LineLint.Pattern.exhausts_occurrences` — **the occurrences of a regular pattern exhaust the
  line**.
-/

import LineLint.Proofs.Pattern.Matches
import LineLint.Proofs.Pattern.Occurrences

set_option relaxedAutoImplicit false
set_option autoImplicit false

namespace LineLint.Pattern

variable {text : Array Char} {pattern : Pattern} {moving : Bool} {start : Nat} {span : Span}

/-! ### A match at a place -/

theorem matches_of_matchAt (hregular : pattern.regular = true) (hbounds : pattern.InOrder)
    (h : matchAt text pattern moving start = some span) :
    Matches text pattern span.start span.stop := by
  obtain ⟨place, hrun, rfl⟩ := Option.map_eq_some_iff.1 h
  obtain ⟨next, hmatch, hnext⟩ := matches_of_run hregular hbounds _ ⟨start, []⟩ place hrun
  split at hnext
  · cases hnext
  · cases hnext
    exact hmatch

/-- Where no match is found, there is none, but for one that spans nothing and may not be taken. -/
theorem empty_of_matchAt_eq_none (hregular : pattern.regular = true)
    (h : matchAt text pattern moving start = none) {stop : Nat}
    (hmatch : Matches text pattern start stop) : moving = true ∧ stop = start := by
  refine Classical.byContradiction fun hne => ?_
  -- the match is accepted unless it may not be taken, so matching would have found it
  have hrun := isSome_run_of_matches hregular
    (fun place => if moving && place.pos == start then none else some place) ⟨start, []⟩ stop hmatch
    fun next hnext => by
      rw [if_neg]
      · rfl
      · rw [Bool.and_eq_true, beq_iff_eq, hnext]
        exact hne
  rw [matchAt, Option.map_eq_none_iff] at h
  rw [h] at hrun
  cases hrun

/-! ### Searching again and again -/

/-- No match begins at the places from `start` up to `stop`, but for one at the first of them that
spans nothing, if `moving` says that it may not be taken. -/
def Gap (text : Array Char) (pattern : Pattern) (moving : Bool) (start stop : Nat) : Prop :=
  ∀ i j, start ≤ i → i < stop → Matches text pattern i j → moving = true ∧ i = start ∧ j = i

/-- A place at which no match is found belongs to a gap. -/
theorem gap_of_matchAt_eq_none (hregular : pattern.regular = true) {stop : Nat}
    (h : ∀ i, start ≤ i → i < stop →
      matchAt text pattern (moving && decide (i = start)) i = none) :
    Gap text pattern moving start stop := by
  intro i j hi hlt hmatch
  obtain ⟨hmoving, hj⟩ := empty_of_matchAt_eq_none hregular (h i hi hlt) hmatch
  rw [Bool.and_eq_true, decide_eq_true_eq] at hmoving
  exact ⟨hmoving.1, hmoving.2, hj⟩

theorem Finds.gap_of_cons (hregular : pattern.regular = true) (hstart : start ≤ text.size)
    {spans : List Span} (h : Finds text pattern moving start (span :: spans)) :
    Gap text pattern moving start span.start := by
  cases h with
  | next hsearch _ =>
      exact gap_of_matchAt_eq_none hregular (leftmost_of_search hstart hsearch).1.none_before

theorem Finds.gap_of_nil (hregular : pattern.regular = true)
    (h : Finds text pattern moving start []) :
    Gap text pattern moving start (text.size + 1) := by
  cases h with
  | done hsearch =>
      refine gap_of_matchAt_eq_none hregular fun i hi hlt => ?_
      exact none_of_search hsearch hi (Nat.le_of_lt_succ hlt)

/-- After a span, the search goes on from its end. -/
theorem Finds.after (hstart : start ≤ text.size) {before after : List Span}
    (h : Finds text pattern moving start (before ++ span :: after)) :
    span.stop ≤ text.size ∧ Finds text pattern span.isEmpty span.stop after := by
  induction before generalizing moving start with
  | nil =>
      cases h with
      | next hsearch hafter => exact ⟨(from_of_search hstart hsearch).stop_le, hafter⟩
  | cons other before ih =>
      cases h with
      | next hsearch hafter => exact ih (from_of_search hstart hsearch).stop_le hafter

theorem Finds.forall_matches (hregular : pattern.regular = true) (hbounds : pattern.InOrder)
    (hstart : start ≤ text.size) {spans : List Span} (h : Finds text pattern moving start spans) :
    ∀ span ∈ spans, Matches text pattern span.start span.stop := by
  induction h with
  | done => simp
  | next hsearch _ ih =>
      have hfound := (leftmost_of_search hstart hsearch).1.found
      refine List.forall_mem_cons.2 ⟨matches_of_matchAt hregular hbounds hfound, ?_⟩
      exact ih (from_of_search hstart hsearch).stop_le

/-! ### All occurrences -/

/-- Some spans of a line miss no match of a pattern and invent none. -/
structure Exhausts (text : Array Char) (pattern : Pattern) (spans : List Span) : Prop where
  /-- Every span is a match. -/
  sound : ∀ span ∈ spans, Matches text pattern span.start span.stop
  /-- There is none only if no span of the line matches. -/
  nil_iff : spans = [] ↔ ∀ i j, i ≤ j → j ≤ text.size → ¬Matches text pattern i j
  /-- The first one begins at the least place at which a match begins. -/
  head_le : ∀ span, spans.head? = some span →
    ∀ i j, Matches text pattern i j → span.start ≤ i
  /-- From the end of one span up to the start of the next, no match begins; but if the one spans
  nothing, it does so itself, and no match that spans something begins there. -/
  between : ∀ before a b after, spans = before ++ a :: b :: after →
    ∀ i j, a.stop ≤ i → i < b.start → Matches text pattern i j →
      a.start = a.stop ∧ i = a.stop ∧ j = i
  /-- The same holds from the end of the last span up to the end of the line. -/
  behind : ∀ before a, spans = before ++ [a] →
    ∀ i j, a.stop ≤ i → i ≤ text.size → Matches text pattern i j →
      a.start = a.stop ∧ i = a.stop ∧ j = i

/-- **The occurrences of a regular pattern exhaust the line.** -/
theorem exhausts_occurrences (text : Array Char) (hregular : pattern.regular = true)
    (hbounds : pattern.InOrder) : Exhausts text pattern (occurrences text pattern) := by
  have hfinds := finds_occurrences text pattern
  have hsound := hfinds.forall_matches hregular hbounds (Nat.zero_le _)
  have hwithin := (orderly_occurrences text pattern).within
  generalize occurrences text pattern = spans at hfinds hsound hwithin
  refine ⟨hsound, ⟨?_, fun hnone => ?_⟩, fun span hhead i j hmatch => ?_, ?_, ?_⟩
  · rintro rfl i j hij hj hmatch
    have hgap := hfinds.gap_of_nil hregular i j (Nat.zero_le _) (by omega) hmatch
    cases hgap.1
  · cases spans with
    | nil => rfl
    | cons span spans =>
        have hspan := hwithin span List.mem_cons_self
        exact absurd (hsound span List.mem_cons_self) (hnone _ _ hspan.1 hspan.2)
  · obtain ⟨spans, rfl⟩ := List.head?_eq_some_iff.1 hhead
    refine Nat.le_of_not_lt fun hlt => ?_
    have hgap := hfinds.gap_of_cons hregular (Nat.zero_le _) i j (Nat.zero_le _) hlt hmatch
    cases hgap.1
  · rintro before a b after rfl i j hi hlt hmatch
    obtain ⟨hstop, hafter⟩ := hfinds.after (Nat.zero_le _)
    obtain ⟨hempty, hi, hj⟩ := hafter.gap_of_cons hregular hstop i j hi hlt hmatch
    exact ⟨beq_iff_eq.1 hempty, hi, hj⟩
  · rintro before a rfl i j hi hsize hmatch
    obtain ⟨-, hafter⟩ := hfinds.after (Nat.zero_le _)
    obtain ⟨hempty, hi, hj⟩ := hafter.gap_of_nil hregular i j hi (by omega) hmatch
    exact ⟨beq_iff_eq.1 hempty, hi, hj⟩

end LineLint.Pattern
