/-
**Maximal runs in a line.**

A run is made of characters in a row that have a property, and it is maximal if neither the
character right before it nor the one right after it has the property.  The maximal runs of a line
are listed by the places at which they begin; each of them ends where the first character without
the property stands.

Main definitions:

* `LineLint.Text.charBefore` — the character right before a place;
* `LineLint.Text.runEnd` — where the characters with a property that follow a place end;
* `LineLint.Text.runs` — the maximal runs of a line;
* `LineLint.Text.IsRun` — **what a maximal run is**.

Main results:

* `LineLint.Text.mem_runs_iff`, `LineLint.Text.pairwise_runs` — **the list holds the maximal runs,
  each once and from left to right**;
* `LineLint.Text.IsRun.eq_of_common` — maximal runs that have a character in common are the same;
* `LineLint.Text.runs_append_singleton` — a last character without the property changes nothing;
* `LineLint.Text.runs_of_forall` — the one run of a line whose characters all have the property.
-/

import LineLint.Pattern.Occurrence

set_option relaxedAutoImplicit false
set_option autoImplicit false

namespace LineLint.Text

open Pattern (Span)

/-- The character right before a place. -/
def charBefore (cs : List Char) : Nat → Option Char
  | 0 => none
  | i + 1 => cs[i]?

/-- Where the characters with a property that follow a place end. -/
def runEnd (p : Char → Bool) (cs : List Char) (start : Nat) : Nat :=
  start + ((cs.drop start).takeWhile p).length

/-- Whether a maximal run begins at a place. -/
def beginsRun (p : Char → Bool) (cs : List Char) (i : Nat) : Bool :=
  cs[i]?.any p && !(charBefore cs i).any p

/-- The maximal runs of characters with a property, from left to right. -/
def runs (p : Char → Bool) (cs : List Char) : List Span :=
  ((List.range cs.length).filter (beginsRun p cs)).map fun i => ⟨i, runEnd p cs i⟩

/-- The characters from one place up to another are there and have a property. -/
def AllOf (p : Char → Bool) (cs : List Char) (i j : Nat) : Prop :=
  ∀ m, i ≤ m → m < j → cs[m]?.any p = true

/-- What a maximal run is. -/
structure IsRun (p : Char → Bool) (cs : List Char) (span : Span) : Prop where
  start_lt_stop : span.start < span.stop
  allOf : AllOf p cs span.start span.stop
  /-- No character before it has the property. -/
  before : (charBefore cs span.start).any p = false
  /-- Nor does a character after it. -/
  after : cs[span.stop]?.any p = false

variable {p q : Char → Bool} {cs other : List Char}

theorem AllOf.mono {i j i' j' : Nat} (h : AllOf p cs i j) (hi : i ≤ i') (hj : j' ≤ j) :
    AllOf p cs i' j' :=
  fun m hle hlt => h m (by omega) (by omega)

theorem lt_length_of_any {i : Nat} (h : cs[i]?.any p = true) : i < cs.length := by
  obtain ⟨c, hc, -⟩ := (Option.any_eq_true _ _).1 h
  exact (List.getElem?_eq_some_iff.1 hc).1

/-! ### The end of a run -/

theorem le_runEnd (start : Nat) : start ≤ runEnd p cs start := Nat.le_add_right _ _

theorem allOf_runEnd (p : Char → Bool) (cs : List Char) (start : Nat) :
    AllOf p cs start (runEnd p cs start) := by
  intro m hle hlt
  obtain ⟨k, rfl⟩ := Nat.exists_eq_add_of_le hle
  have hk : k < ((cs.drop start).takeWhile p).length := by
    unfold runEnd at hlt
    omega
  have hget : cs[start + k]? = some ((cs.drop start).takeWhile p)[k] := by
    rw [← List.getElem?_drop, (List.takeWhile_prefix p).getElem hk]
    exact List.getElem?_eq_getElem _
  have hall : ((cs.drop start).takeWhile p).all p = true := List.all_takeWhile
  rw [hget]
  exact List.all_eq_true.1 hall _ (List.getElem_mem hk)

theorem any_runEnd (p : Char → Bool) (cs : List Char) (start : Nat) :
    cs[runEnd p cs start]?.any p = false := by
  have hsplit : ((cs.drop start).takeWhile p ++ (cs.drop start).dropWhile p)[
      ((cs.drop start).takeWhile p).length]? = ((cs.drop start).dropWhile p).head? := by
    rw [List.getElem?_append_right (Nat.le_refl _), Nat.sub_self, List.head?_eq_getElem?]
  have hget : cs[runEnd p cs start]? = ((cs.drop start).dropWhile p).head? := by
    rw [← hsplit, List.takeWhile_append_dropWhile, List.getElem?_drop]
    rfl
  have hnot := List.head?_dropWhile_not p (cs.drop start)
  rw [hget]
  cases hhead : ((cs.drop start).dropWhile p).head? with
  | none => rfl
  | some c => simpa [hhead] using hnot

theorem le_runEnd_of_allOf {i j : Nat} (h : AllOf p cs i j) : j ≤ runEnd p cs i := by
  refine Nat.le_of_not_lt fun hlt => ?_
  have hany := h _ (le_runEnd i) hlt
  rw [any_runEnd] at hany
  cases hany

/-- A run ends at the first place at which the property fails. -/
theorem eq_runEnd {i j : Nat} (hle : i ≤ j) (hall : AllOf p cs i j)
    (hafter : cs[j]?.any p = false) : j = runEnd p cs i := by
  refine Nat.le_antisymm (le_runEnd_of_allOf hall) (Nat.le_of_not_lt fun hlt => ?_)
  have hany := allOf_runEnd p cs i j hle hlt
  rw [hafter] at hany
  cases hany

/-- Every place of a run has the end of the run as its own. -/
theorem runEnd_eq_of_allOf {i j : Nat} (h : AllOf p cs i j) (hle : i ≤ j) :
    runEnd p cs j = runEnd p cs i :=
  (eq_runEnd (le_runEnd_of_allOf h) ((allOf_runEnd p cs i).mono hle (Nat.le_refl _))
    (any_runEnd p cs i)).symm

/-! ### The list of runs -/

theorem IsRun.stop_eq {span : Span} (h : IsRun p cs span) :
    span.stop = runEnd p cs span.start :=
  eq_runEnd (Nat.le_of_lt h.start_lt_stop) h.allOf h.after

theorem mem_runs_iff {span : Span} : span ∈ runs p cs ↔ IsRun p cs span := by
  constructor
  · intro h
    obtain ⟨i, hi, rfl⟩ := List.mem_map.1 h
    obtain ⟨-, hbegins⟩ := List.mem_filter.1 hi
    obtain ⟨hany, hbefore⟩ := Bool.and_eq_true_iff.1 hbegins
    rw [Bool.not_eq_true'] at hbefore
    have hfirst : AllOf p cs i (i + 1) := by
      intro m hle hlt
      obtain rfl : m = i := by omega
      exact hany
    exact ⟨le_runEnd_of_allOf hfirst, allOf_runEnd p cs i, hbefore, any_runEnd p cs i⟩
  · intro h
    have hany := h.allOf _ (Nat.le_refl _) h.start_lt_stop
    refine List.mem_map.2 ⟨span.start, List.mem_filter.2 ⟨?_, ?_⟩, ?_⟩
    · exact List.mem_range.2 (lt_length_of_any hany)
    · rw [beginsRun, hany, h.before]
      rfl
    · rw [← h.stop_eq]

theorem pairwise_runs (p : Char → Bool) (cs : List Char) :
    (runs p cs).Pairwise fun a b => a.start < b.start :=
  List.pairwise_map.2 (List.pairwise_lt_range.filter _)

/-- A maximal run is not preceded by characters with the property. -/
theorem IsRun.start_le {span : Span} (h : IsRun p cs span) {i j : Nat} (hall : AllOf p cs i j)
    (hj : span.start ≤ j) : span.start ≤ i := by
  refine Nat.le_of_not_lt fun hlt => ?_
  obtain ⟨k, hk⟩ := Nat.exists_eq_add_one_of_ne_zero (Nat.ne_of_gt (Nat.zero_lt_of_lt hlt))
  have hbefore := h.before
  rw [hk, charBefore, hall k (by omega) (by omega)] at hbefore
  cases hbefore

/-- Maximal runs that have a character in common are the same. -/
theorem IsRun.eq_of_common {a b : Span} (ha : IsRun p cs a) (hb : IsRun p cs b) {i : Nat}
    (hia : a.start ≤ i ∧ i < a.stop) (hib : b.start ≤ i ∧ i < b.stop) : a = b := by
  have hle : a.start ≤ b.start := ha.start_le hb.allOf (by omega)
  have hge : b.start ≤ a.start := hb.start_le ha.allOf (by omega)
  have hstart : a.start = b.start := Nat.le_antisymm hle hge
  have hstop : a.stop = b.stop := by rw [ha.stop_eq, hb.stop_eq, hstart]
  cases a
  cases b
  cases hstart
  cases hstop
  rfl

/-- Spans in order are those of a list in order that has the same members. -/
theorem eq_of_mem_iff {first second : List Span}
    (hfirst : first.Pairwise fun a b => a.start < b.start)
    (hsecond : second.Pairwise fun a b => a.start < b.start)
    (h : ∀ span, span ∈ first ↔ span ∈ second) : first = second := by
  have hnodup {spans : List Span} (hspans : spans.Pairwise fun a b => a.start < b.start) :
      spans.Nodup := by
    refine hspans.imp fun hlt heq => ?_
    rw [heq] at hlt
    exact Nat.lt_irrefl _ hlt
  refine List.Perm.eq_of_pairwise ?_ hfirst hsecond
    ((List.perm_ext_iff_of_nodup (hnodup hfirst) (hnodup hsecond)).2 h)
  intro a b _ _ hlt hgt
  exact absurd hlt (Nat.lt_asymm hgt)

/-! ### Runs of related lines -/

theorem IsRun.congr {span : Span} (h : IsRun p cs span)
    (hany : ∀ i : Nat, cs[i]?.any p = other[i]?.any q) : IsRun q other span := by
  refine ⟨h.start_lt_stop, fun m hle hlt => ?_, ?_, ?_⟩
  · rw [← hany]
    exact h.allOf m hle hlt
  · have hbefore := h.before
    cases hstart : span.start with
    | zero => rfl
    | succ i =>
        rw [hstart] at hbefore
        exact (hany i).symm.trans hbefore
  · rw [← hany]
    exact h.after

/-- The runs of a line depend on the places of the characters with the property alone. -/
theorem runs_congr (hany : ∀ i : Nat, cs[i]?.any p = other[i]?.any q) :
    runs p cs = runs q other := by
  refine eq_of_mem_iff (pairwise_runs p cs) (pairwise_runs q other) fun span => ?_
  rw [mem_runs_iff, mem_runs_iff]
  exact ⟨fun h => h.congr hany, fun h => h.congr fun i => (hany i).symm⟩

/-- A last character without the property changes nothing. -/
theorem runs_append_singleton {c : Char} (hc : p c = false) :
    runs p (cs ++ [c]) = runs p cs := by
  refine runs_congr fun i => ?_
  rcases Nat.lt_trichotomy i cs.length with hlt | rfl | hgt
  · rw [List.getElem?_append_left hlt]
  · simp [hc]
  · have hlength : (cs ++ [c]).length ≤ i := by
      rw [List.length_append]
      exact hgt
    rw [List.getElem?_eq_none hlength, List.getElem?_eq_none (Nat.le_of_lt hgt)]

/-- A line whose characters all have the property is one run, if it is not empty. -/
theorem runs_of_forall (h : ∀ c ∈ cs, p c = true) (hne : cs ≠ []) :
    runs p cs = [⟨0, cs.length⟩] := by
  have hwhole : IsRun p cs ⟨0, cs.length⟩ := by
    refine ⟨List.length_pos_iff.2 hne, fun m _ hlt => ?_, rfl, ?_⟩
    · rw [List.getElem?_eq_getElem hlt]
      exact h _ (List.getElem_mem hlt)
    · rw [List.getElem?_eq_none (Nat.le_refl _)]
      rfl
  refine eq_of_mem_iff (pairwise_runs p cs) (List.pairwise_singleton _ _) fun span => ?_
  rw [mem_runs_iff, List.mem_singleton]
  constructor
  · intro hspan
    have hlt := lt_length_of_any (hspan.allOf _ (Nat.le_refl _) hspan.start_lt_stop)
    exact hspan.eq_of_common hwhole ⟨Nat.le_refl _, hspan.start_lt_stop⟩ ⟨Nat.zero_le _, hlt⟩
  · rintro rfl
    exact hwhole

end LineLint.Text
