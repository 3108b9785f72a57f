/-
**The occurrences of any pattern are in order and do not overlap.**

The search for occurrences has two things to remember: the place where it goes on, and whether the
next occurrence at that place must span something.  Every occurrence moves this pair on: the place
grows, or it stays and the condition becomes stricter.  So the search ends, no occurrence is found
twice, and a line of `n` characters has at most `2 * n + 1` of them.  None of this depends on the
pattern.

Main definitions:

* `LineLint.Pattern.Leftmost` — the span is the first match from a place on;
* `LineLint.Pattern.Finds` — searching again and again, without a bound on the number of searches;
* `LineLint.Pattern.Span.Before`, `LineLint.Pattern.Orderly` — spans in order that do not overlap.

Main results:

* `LineLint.Pattern.leftmost_of_search` — a search finds the first match;
* `LineLint.Pattern.finds_occurrences` — the bound on the number of searches is never reached;
* `LineLint.Pattern.exists_occurrence_covering` — no match of something is passed over;
* `LineLint.Pattern.orderly_occurrences` — **the occurrences of a pattern are orderly**.
-/

import LineLint.Pattern.Occurrence
import LineLint.Proofs.Pattern.Advance

set_option relaxedAutoImplicit false
set_option autoImplicit false

namespace LineLint.Pattern

variable {text : Array Char} {pattern : Pattern} {moving : Bool} {start : Nat} {span : Span}

/-! ### One search -/

/-- A match at a place begins there, ends within the line and, if it has to, spans something. -/
theorem bounds_of_matchAt (hstart : start ≤ text.size)
    (h : matchAt text pattern moving start = some span) :
    span.start = start ∧ start ≤ span.stop ∧ span.stop ≤ text.size ∧
      (moving = true → start < span.stop) := by
  obtain ⟨place, hrun, rfl⟩ := Option.map_eq_some_iff.1 h
  obtain ⟨next, hle, hsize, hnext⟩ := advances_run text pattern _ ⟨start, []⟩ place hstart hrun
  split at hnext
  · cases hnext
  · next hmoving =>
      cases hnext
      refine ⟨rfl, hle, hsize, fun htrue => ?_⟩
      simp only [htrue, Bool.true_and, beq_iff_eq] at hmoving
      exact Nat.lt_of_le_of_ne hle (Ne.symm hmoving)

/-- A span is the first match from a place on; at that very place, it has to span something if
`moving` says so. -/
structure Leftmost (text : Array Char) (pattern : Pattern) (moving : Bool) (start : Nat)
    (span : Span) : Prop where
  le_start : start ≤ span.start
  found : matchAt text pattern (moving && decide (span.start = start)) span.start = some span
  none_before : ∀ i, start ≤ i → i < span.start →
    matchAt text pattern (moving && decide (i = start)) i = none

theorem leftmost_of_firstFrom {count : Nat} (hbound : start + count ≤ text.size + 1)
    (h : firstFrom text pattern moving start count = some span) :
    Leftmost text pattern moving start span ∧ span.start < start + count := by
  induction count generalizing moving start with
  | zero => cases h
  | succ count ih =>
      unfold firstFrom at h
      split at h
      · next found hfound =>
          cases h
          have hspan : span.start = start := (bounds_of_matchAt (by omega) hfound).1
          refine ⟨⟨by omega, ?_, fun i hi hlt => by omega⟩, by omega⟩
          simpa [hspan] using hfound
      · next hnone =>
          obtain ⟨hleft, hlt⟩ := ih (by omega) h
          have hle := hleft.le_start
          have hne : ¬span.start = start := by omega
          refine ⟨⟨by omega, ?_, fun i hi hi' => ?_⟩, by omega⟩
          · simpa [hne] using hleft.found
          · rcases Nat.eq_or_lt_of_le hi with rfl | hi
            · simpa using hnone
            · have hne' : ¬i = start := by omega
              simpa [hne'] using hleft.none_before i hi hi'

theorem none_of_firstFrom {count : Nat} (h : firstFrom text pattern moving start count = none)
    {i : Nat} (hi : start ≤ i) (hlt : i < start + count) :
    matchAt text pattern (moving && decide (i = start)) i = none := by
  induction count generalizing moving start with
  | zero => omega
  | succ count ih =>
      unfold firstFrom at h
      split at h
      · cases h
      · next hnone =>
          rcases Nat.eq_or_lt_of_le hi with rfl | hi
          · simpa using hnone
          · have hne : ¬i = start := by omega
            simpa [hne] using ih h hi (by omega)

/-- A search finds the first match. -/
theorem leftmost_of_search (hstart : start ≤ text.size)
    (h : search text pattern moving start = some span) :
    Leftmost text pattern moving start span ∧ span.start ≤ text.size := by
  obtain ⟨hleft, hlt⟩ := leftmost_of_firstFrom (by omega) h
  exact ⟨hleft, by omega⟩

/-- A search that finds nothing has looked at every place. -/
theorem none_of_search (h : search text pattern moving start = none) {i : Nat} (hi : start ≤ i)
    (hsize : i ≤ text.size) : matchAt text pattern (moving && decide (i = start)) i = none :=
  none_of_firstFrom h hi (by omega)

/-- A span lies from a place on within the line; at that very place, it spans something if `moving`
says so. -/
structure Span.From (size : Nat) (moving : Bool) (start : Nat) (span : Span) : Prop where
  le_start : start ≤ span.start
  start_le_stop : span.start ≤ span.stop
  stop_le : span.stop ≤ size
  moves : moving = true → span.start = start → span.start < span.stop

theorem from_of_search (hstart : start ≤ text.size)
    (h : search text pattern moving start = some span) :
    span.From text.size moving start := by
  obtain ⟨hleft, hsize⟩ := leftmost_of_search hstart h
  obtain ⟨-, hle, hstop, hmoving⟩ := bounds_of_matchAt hsize hleft.found
  refine ⟨hleft.le_start, hle, hstop, fun htrue heq => hmoving ?_⟩
  simp [htrue, heq]

/-! ### Searching again and again -/

/-- The spans that searching again and again finds, beginning at a place: the next search goes on
where the last span ended, and must span something there if the last one did not. -/
inductive Finds (text : Array Char) (pattern : Pattern) : Bool → Nat → List Span → Prop
  | done {moving : Bool} {start : Nat} : search text pattern moving start = none →
      Finds text pattern moving start []
  | next {moving : Bool} {start : Nat} {span : Span} {spans : List Span} :
      search text pattern moving start = some span →
      Finds text pattern span.isEmpty span.stop spans →
      Finds text pattern moving start (span :: spans)

/-- How many spans can still be found: two for every place that is left, but at the place itself no
empty one any more if `moving` says so. -/
def budget (size : Nat) (moving : Bool) (start : Nat) : Nat :=
  2 * (size - start) + if moving then 0 else 1

/-- Every span that is found leaves less to find. -/
theorem budget_lt (hstart : start ≤ text.size)
    (h : search text pattern moving start = some span) :
    budget text.size span.isEmpty span.stop < budget text.size moving start := by
  obtain ⟨hle, hspan, hsize, hmoving⟩ := from_of_search hstart h
  unfold budget Span.isEmpty
  by_cases hempty : span.start = span.stop
  · -- An empty span at the place itself is only found while that is still allowed.
    cases moving with
    | false => simp [hempty]; omega
    | true =>
        have hne : span.start ≠ start := fun heq => absurd (hmoving rfl heq) (by omega)
        simp [hempty]; omega
  · cases moving <;> simp [hempty] <;> omega

theorem finds_occurrencesFrom {count : Nat} (hstart : start ≤ text.size)
    (hcount : budget text.size moving start < count) :
    Finds text pattern moving start (occurrencesFrom text pattern count moving start) := by
  induction count generalizing moving start with
  | zero => omega
  | succ count ih =>
      unfold occurrencesFrom
      split
      · next hnone => exact .done hnone
      · next span hspan =>
          have hlt := budget_lt hstart hspan
          exact .next hspan (ih (from_of_search hstart hspan).stop_le (by omega))

/-- The occurrences in a line are all that searching again and again finds. -/
theorem finds_occurrences (text : Array Char) (pattern : Pattern) :
    Finds text pattern false 0 (occurrences text pattern) :=
  finds_occurrencesFrom (Nat.zero_le _) (by simp [budget])

theorem Finds.length_le {spans : List Span} (hstart : start ≤ text.size)
    (h : Finds text pattern moving start spans) :
    spans.length ≤ budget text.size moving start := by
  induction h with
  | done => exact Nat.zero_le _
  | next hspan _ ih =>
      have hlt := budget_lt hstart hspan
      have hle := ih (from_of_search hstart hspan).stop_le
      simp only [List.length_cons]
      omega

/-- What is found is a match at its place. -/
theorem Finds.exists_matchAt {spans : List Span} (hstart : start ≤ text.size)
    (h : Finds text pattern moving start spans) :
    ∀ span ∈ spans, ∃ moving, matchAt text pattern moving span.start = some span := by
  induction h with
  | done => simp
  | next hspan _ ih =>
      have hfound := (leftmost_of_search hstart hspan).1.found
      exact List.forall_mem_cons.2 ⟨⟨_, hfound⟩, ih (from_of_search hstart hspan).stop_le⟩

/-- A place at which the pattern matches, whether it has to span something there or not, is within
one of the spans that are found. -/
theorem Finds.exists_covering {spans : List Span} (hstart : start ≤ text.size)
    (h : Finds text pattern moving start spans) {i : Nat} (hi : start ≤ i) (hsize : i ≤ text.size)
    (hmatch : ∀ moving, (matchAt text pattern moving i).isSome) :
    ∃ span ∈ spans, span.start ≤ i ∧ i < span.stop := by
  have hne : ∀ moving, matchAt text pattern moving i ≠ none := fun moving hnone => by
    simpa [hnone] using hmatch moving
  induction h with
  | done hsearch => exact absurd (none_of_search hsearch hi hsize) (hne _)
  | @next moving start span spans hspan _ ih =>
      -- a search does not pass over the place
      have hle : span.start ≤ i := Nat.le_of_not_lt fun hlt =>
        hne _ ((leftmost_of_search hstart hspan).1.none_before i hi hlt)
      rcases Nat.lt_or_ge i span.stop with hlt | hge
      · exact ⟨span, List.mem_cons_self, hle, hlt⟩
      · obtain ⟨other, hother, hcovers⟩ := ih (from_of_search hstart hspan).stop_le hge
        exact ⟨other, List.mem_cons_of_mem _ hother, hcovers⟩

theorem exists_matchAt_of_mem_occurrences (h : span ∈ occurrences text pattern) :
    ∃ moving, matchAt text pattern moving span.start = some span :=
  (finds_occurrences text pattern).exists_matchAt (Nat.zero_le _) span h

theorem exists_occurrence_covering {i : Nat} (hsize : i ≤ text.size)
    (hmatch : ∀ moving, (matchAt text pattern moving i).isSome) :
    ∃ span ∈ occurrences text pattern, span.start ≤ i ∧ i < span.stop :=
  (finds_occurrences text pattern).exists_covering (Nat.zero_le _) (Nat.zero_le _) hsize hmatch

/-! ### The order of the occurrences -/

/-- One span stands before another: it ends where the other one begins or earlier, and if both begin
at the same place, it is the one that spans nothing. -/
def Span.Before (a b : Span) : Prop :=
  a.stop ≤ b.start ∧ (a.start < b.start ∨ a.start = b.start ∧ a.isEmpty ∧ ¬b.isEmpty)

/-- What is found after a span lies from the start of the search on, too. -/
theorem Span.From.trans {size : Nat} {other : Span} (h : span.From size moving start)
    (h' : other.From size span.isEmpty span.stop) : other.From size moving start := by
  obtain ⟨hle, hspan, -, hmoving⟩ := h
  obtain ⟨hle', hother, hsize, -⟩ := h'
  refine ⟨by omega, hother, hsize, fun htrue heq => ?_⟩
  -- Both spans would begin at the start, and the first one would be empty against `moving`.
  have hlt := hmoving htrue (by omega)
  omega

/-- What is found after a span stands behind it. -/
theorem Span.From.before {size : Nat} {other : Span} (h : span.From size moving start)
    (h' : other.From size span.isEmpty span.stop) : span.Before other := by
  have hspan := h.start_le_stop
  have hle := h'.le_start
  refine ⟨hle, ?_⟩
  rcases Nat.lt_or_ge span.start other.start with hlt | hge
  · exact Or.inl hlt
  · have hempty : span.isEmpty = true := by
      rw [Span.isEmpty, beq_iff_eq]
      omega
    have hmoves := h'.moves hempty (by omega)
    refine Or.inr ⟨by omega, hempty, fun hother => ?_⟩
    rw [Span.isEmpty, beq_iff_eq] at hother
    omega

/-- Everything that is found lies from the start of the search on, and in order. -/
theorem Finds.pairwise_before {spans : List Span} (hstart : start ≤ text.size)
    (h : Finds text pattern moving start spans) :
    (∀ span ∈ spans, span.From text.size moving start) ∧ spans.Pairwise Span.Before := by
  induction h with
  | done => exact ⟨by simp, List.Pairwise.nil⟩
  | next hspan _ ih =>
      have hfrom := from_of_search hstart hspan
      obtain ⟨hrest, hpairwise⟩ := ih hfrom.stop_le
      refine ⟨List.forall_mem_cons.2 ⟨hfrom, fun other hother => ?_⟩,
        List.pairwise_cons.2 ⟨fun other hother => ?_, hpairwise⟩⟩
      · exact hfrom.trans (hrest other hother)
      · exact hfrom.before (hrest other hother)

/-- Spans of a line of `size` characters in order that do not overlap. -/
structure Orderly (size : Nat) (spans : List Span) : Prop where
  /-- They lie within the line. -/
  within : ∀ span ∈ spans, span.start ≤ span.stop ∧ span.stop ≤ size
  /-- None begins before an earlier one ends. -/
  apart : spans.Pairwise fun a b => a.stop ≤ b.start
  /-- At every place begin at most one that spans nothing and, after it, one that does. -/
  distinct : spans.Pairwise fun a b =>
    a.start < b.start ∨ a.start = b.start ∧ a.isEmpty ∧ ¬b.isEmpty
  /-- There are at most two for every character, and one for the end of the line. -/
  length_le : spans.length ≤ 2 * size + 1
  /-- If none of them is empty, their starts grow. -/
  increasing : (∀ span ∈ spans, ¬span.isEmpty) → spans.Pairwise fun a b => a.start < b.start

/-- Spans in order that have a character in common are the same. -/
theorem Orderly.eq_of_common {size : Nat} {spans : List Span} (h : Orderly size spans) {a b : Span}
    (ha : a ∈ spans) (hb : b ∈ spans) {i : Nat} (hia : a.start ≤ i ∧ i < a.stop)
    (hib : b.start ≤ i ∧ i < b.stop) : a = b := by
  obtain ⟨m, hm, rfl⟩ := List.mem_iff_getElem.1 ha
  obtain ⟨n, hn, rfl⟩ := List.mem_iff_getElem.1 hb
  have hapart := List.pairwise_iff_getElem.1 h.apart
  rcases Nat.lt_trichotomy m n with hlt | rfl | hgt
  · have hle := hapart m n hm hn hlt
    omega
  · rfl
  · have hle := hapart n m hn hm hgt
    omega

/-- **The occurrences of a pattern are orderly.** -/
theorem orderly_occurrences (text : Array Char) (pattern : Pattern) :
    Orderly text.size (occurrences text pattern) := by
  have hfinds := finds_occurrences text pattern
  obtain ⟨hfrom, hpairwise⟩ := hfinds.pairwise_before (Nat.zero_le _)
  have hdistinct : (occurrences text pattern).Pairwise fun a b =>
      a.start < b.start ∨ a.start = b.start ∧ a.isEmpty ∧ ¬b.isEmpty :=
    hpairwise.imp fun h => h.2
  refine
    { within := fun span hspan => ⟨(hfrom span hspan).start_le_stop, (hfrom span hspan).stop_le⟩
      apart := hpairwise.imp fun h => h.1
      distinct := hdistinct
      length_le := by simpa [budget] using hfinds.length_le (Nat.zero_le _)
      increasing := fun hnone => hdistinct.imp_of_mem fun ha _ h => ?_ }
  exact h.resolve_right fun hsame => hnone _ ha hsame.2.1

end LineLint.Pattern
