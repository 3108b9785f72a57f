/-
**Patterns that occur at maximal runs.**

A greedy repetition of a class without a greatest number takes all characters of the class that
follow the place, so it ends where the run ends.  Nothing of a run is then left for a second
occurrence, and a match that would begin in the middle of a run is overtaken by one that begins at
its first character: such a pattern occurs exactly at the maximal runs that are long enough.

Main results:

* `LineLint.Pattern.run_not_ahead`, `LineLint.Pattern.run_not_behind` — the conditions on the
  characters around a place;
* `LineLint.Pattern.further_chars` — the further rounds of a greedy repetition go to the end of the
  run;
* `LineLint.Pattern.matchAt_greedy` — what a greedy repetition matches at a place;
* `LineLint.Pattern.occurrences_eq_filter_runs` — a pattern occurs at the maximal runs that pass a
  test if its occurrences are these runs in any order;
* `LineLint.Pattern.occurrences_greedy` — **a greedy repetition occurs at the maximal runs that are
  long enough**.
-/

import LineLint.Proofs.Pattern.Exhaustive
import LineLint.Proofs.Text.Runs

set_option relaxedAutoImplicit false
set_option autoImplicit false

namespace LineLint.Pattern

open Text (AllOf IsRun runEnd)

variable {cls : CharClass} {cs : List Char} {rest : Rest} {place : Place}

/-! ### Characters of a class, at a place and around it -/

theorem CharItem.single_holds (c d : Char) : (CharItem.single c.toNat).holds d = (d == c) := by
  rw [CharItem.holds, Bool.eq_iff_iff, beq_iff_eq, beq_iff_eq, Char.toNat_inj]

theorem run_chars :
    run cs.toArray (.chars cls) rest place =
      if cs[place.pos]?.any cls.holds then rest (place.forward 1) else none := by
  rw [run, List.getElem?_toArray]
  cases cs[place.pos]? with
  | none => rfl
  | some c => rfl

/-- The condition that no character of a class follows. -/
theorem run_not_ahead :
    run cs.toArray (.lookAhead false (.chars cls)) rest place =
      if cs[place.pos]?.any cls.holds then none else rest place := by
  rw [run, run_chars]
  cases cs[place.pos]?.any cls.holds with
  | true => rfl
  | false => rfl

/-- The condition that no character of a class stands right before the place. -/
theorem run_not_behind :
    run cs.toArray (.lookBehind false 1 (.chars cls)) rest place =
      if (Text.charBefore cs place.pos).any cls.holds then none else rest place := by
  rw [run]
  cases hpos : place.pos with
  | zero => rfl
  | succ i =>
      rw [if_pos (Nat.succ_le_succ (Nat.zero_le i)), run_chars, Nat.add_sub_cancel, Text.charBefore]
      cases cs[i]?.any cls.holds with
      | true => rfl
      | false => rfl

theorem runs_iff_allOf {i j : Nat} : Runs cs.toArray cls i j ↔ AllOf cls.holds cs i j := by
  simp only [Runs, AllOf, List.getElem?_toArray, Option.any_eq_true]

theorem rounds_chars {count : Nat} (h : AllOf cls.holds cs place.pos (place.pos + count)) :
    rounds (run cs.toArray (.chars cls)) count rest place = rest (place.forward count) := by
  induction count generalizing place with
  | zero => rfl
  | succ count ih =>
      have hrest : AllOf cls.holds cs (place.forward 1).pos ((place.forward 1).pos + count) :=
        h.mono (Nat.le_add_right _ _) (by simp only [Place.forward]; omega)
      rw [rounds, run_chars, h _ (Nat.le_refl _) (by omega), if_pos rfl, ih hrest]
      simp only [Place.forward, Nat.add_assoc, Nat.add_comm 1]

/-- The further rounds of a greedy repetition go to the end of the run if what follows accepts
that. -/
theorem further_chars {n count : Nat} {last : Option Nat} {result : Place}
    (hrun : runEnd cls.holds cs place.pos = place.pos + n) (hcount : n ≤ count)
    (hlast : last ≠ some place.pos) (hrest : rest (place.forward n) = some result) :
    further (run cs.toArray (.chars cls)) true count last rest place = some result := by
  induction count generalizing n last place with
  | zero =>
      obtain rfl := Nat.le_zero.1 hcount
      exact hrest
  | succ count ih =>
      rw [further, if_neg hlast, if_pos rfl, run_chars]
      cases n with
      | zero =>
          -- no character of the class follows, so what follows the repetition has its turn
          have hnone := Text.any_runEnd cls.holds cs place.pos
          rw [hrun] at hnone
          rw [show cs[place.pos]?.any cls.holds = false from hnone]
          exact hrest
      | succ n =>
          have hall := Text.allOf_runEnd cls.holds cs place.pos
          rw [hrun] at hall
          have hnext : runEnd cls.holds cs (place.forward 1).pos =
              (place.forward 1).pos + n := by
            rw [show (place.forward 1).pos = place.pos + 1 from rfl,
              Text.runEnd_eq_of_allOf (hall.mono (Nat.le_refl _) (by omega)) (Nat.le_succ _), hrun]
            omega
          have hfound : further (run cs.toArray (.chars cls)) true count (some place.pos) rest
              (place.forward 1) = some result := by
            refine ih hnext (Nat.le_of_succ_le_succ hcount) ?_ ?_
            · simp [Place.forward]
            · rw [← hrest]
              simp only [Place.forward, Nat.add_assoc, Nat.add_comm 1]
          rw [hall _ (Nat.le_refl _) (by omega), if_pos rfl, hfound]

/-- A greedy repetition goes to the end of the run if that is far enough away, and else it does not
match. -/
theorem matchAt_greedy {least : Nat} (hleast : 0 < least) (moving : Bool) (i : Nat) :
    matchAt cs.toArray (.repeated (.chars cls) least none .greedy) moving i =
      if i + least ≤ runEnd cls.holds cs i then some ⟨i, runEnd cls.holds cs i⟩ else none := by
  have hall := Text.allOf_runEnd cls.holds cs i
  split
  · next hfar =>
      obtain ⟨n, hn⟩ := Nat.exists_eq_add_of_le hfar
      have hend : runEnd cls.holds cs (i + least) = i + least + n := by
        rw [Text.runEnd_eq_of_allOf (hall.mono (Nat.le_refl _) hfar) (Nat.le_add_right _ _), hn]
      have hbound : n ≤ furtherBound cs.toArray least none ⟨i + least, []⟩ := by
        have hlt := Text.lt_length_of_any (hall (i + least + n - 1) (by omega) (by omega))
        simp only [furtherBound, List.size_toArray]
        omega
      have hrounds : AllOf cls.holds cs i (i + least) := hall.mono (Nat.le_refl _) hfar
      -- it has taken something, so its end is accepted in any case
      have hfurther : further (run cs.toArray (.chars cls)) true
          (furtherBound cs.toArray least none ⟨i + least, []⟩) none
          (fun place => if moving && place.pos == i then none else some place) ⟨i + least, []⟩ =
            some ⟨i + least + n, []⟩ := by
        refine further_chars hend hbound (Option.some_ne_none _).symm (if_neg ?_)
        simp only [Place.forward, Bool.and_eq_true, beq_iff_eq, not_and]
        omega
      rw [matchAt, run_repeated (by decide), rounds_chars hrounds, hn]
      exact congrArg (Option.map _) hfurther
  · next hnear =>
      refine Option.eq_none_iff_forall_ne_some.2 fun span hspan => hnear ?_
      have hbounds : InOrder (.repeated (.chars cls) least none .greedy) := ⟨trivial, by simp⟩
      obtain ⟨hle, -, hruns⟩ :=
        matches_repeated_chars_iff.1 (matches_of_matchAt rfl hbounds hspan)
      obtain ⟨place, -, rfl⟩ := Option.map_eq_some_iff.1 hspan
      exact Nat.le_trans hle (Text.le_runEnd_of_allOf (runs_iff_allOf.1 hruns))

/-! ### Occurrences -/

/-- A pattern occurs at the maximal runs that pass a test if its occurrences are these runs, in any
order. -/
theorem occurrences_eq_filter_runs {pattern : Pattern} {p : Char → Bool} {keep : Span → Bool}
    (h : ∀ span, span ∈ occurrences cs.toArray pattern ↔
      IsRun p cs span ∧ keep span = true) :
    occurrences cs.toArray pattern = (Text.runs p cs).filter keep := by
  have hincreasing : (occurrences cs.toArray pattern).Pairwise fun a b => a.start < b.start := by
    refine (orderly_occurrences cs.toArray pattern).increasing fun span hspan hempty => ?_
    rw [Span.isEmpty, beq_iff_eq] at hempty
    exact Nat.ne_of_lt ((h span).1 hspan).1.start_lt_stop hempty
  refine Text.eq_of_mem_iff hincreasing ((Text.pairwise_runs p cs).filter _) fun span => ?_
  rw [h, List.mem_filter, Text.mem_runs_iff]

section Greedy

variable {least : Nat} {span : Span}

/-- An occurrence of a greedy repetition goes to the end of its run. -/
theorem stop_eq_of_mem_greedy (hleast : 0 < least)
    (h : span ∈ occurrences cs.toArray (.repeated (.chars cls) least none .greedy)) :
    span.stop = runEnd cls.holds cs span.start ∧ span.start + least ≤ span.stop := by
  obtain ⟨moving, hmatch⟩ := exists_matchAt_of_mem_occurrences h
  rw [matchAt_greedy hleast] at hmatch
  split at hmatch
  · next hfar =>
      have hstop := congrArg Span.stop (Option.some.inj hmatch)
      exact ⟨hstop.symm, hstop ▸ hfar⟩
  · cases hmatch

/-- A place from which on a run is long enough is within an occurrence. -/
theorem exists_greedy_covering (hleast : 0 < least) {i : Nat}
    (hfar : i + least ≤ runEnd cls.holds cs i) :
    ∃ span ∈ occurrences cs.toArray (.repeated (.chars cls) least none .greedy),
      span.start ≤ i ∧ i < span.stop := by
  have hany := Text.allOf_runEnd cls.holds cs i i (Nat.le_refl _) (by omega)
  have hsize : i ≤ cs.toArray.size := Nat.le_of_lt (Text.lt_length_of_any hany)
  refine exists_occurrence_covering hsize fun moving => ?_
  rw [matchAt_greedy hleast, if_pos hfar]
  rfl

/-- No character of the class stands right before an occurrence of a greedy repetition: one that
begins earlier would have taken the run to its end. -/
theorem before_of_mem_greedy (hleast : 0 < least)
    (h : span ∈ occurrences cs.toArray (.repeated (.chars cls) least none .greedy)) :
    (Text.charBefore cs span.start).any cls.holds = false := by
  refine Bool.eq_false_iff.2 fun hbefore => ?_
  obtain ⟨hstop, hfar⟩ := stop_eq_of_mem_greedy hleast h
  cases hstart : span.start with
  | zero =>
      rw [hstart] at hbefore
      cases hbefore
  | succ k =>
      rw [hstart] at hbefore hstop
      have hone : AllOf cls.holds cs k (k + 1) := by
        intro m hle hlt
        obtain rfl : m = k := by omega
        exact hbefore
      have hend : span.stop = runEnd cls.holds cs k :=
        hstop.trans (Text.runEnd_eq_of_allOf hone (Nat.le_succ k))
      have hearlier : k + least ≤ runEnd cls.holds cs k := by omega
      obtain ⟨other, hother, hle, hlt⟩ := exists_greedy_covering hleast hearlier
      have hother' := (stop_eq_of_mem_greedy hleast hother).1
      have hreach : AllOf cls.holds cs other.start k :=
        (Text.allOf_runEnd cls.holds cs other.start).mono (Nat.le_refl _) (by omega)
      rw [← Text.runEnd_eq_of_allOf hreach hle, ← hend] at hother'
      have hshared : other.start ≤ k + 1 ∧ k + 1 < other.stop := by omega
      have hsame := (orderly_occurrences _ _).eq_of_common hother h hshared (by omega)
      rw [hsame] at hle
      omega

/-- **A greedy repetition occurs at the maximal runs that are long enough.** -/
theorem occurrences_greedy (cls : CharClass) (cs : List Char) (hleast : 0 < least) :
    occurrences cs.toArray (.repeated (.chars cls) least none .greedy) =
      (Text.runs cls.holds cs).filter fun span => decide (span.start + least ≤ span.stop) := by
  refine occurrences_eq_filter_runs fun span => ?_
  rw [decide_eq_true_eq]
  constructor
  · intro hspan
    obtain ⟨hstop, hfar⟩ := stop_eq_of_mem_greedy hleast hspan
    refine ⟨⟨by omega, ?_, before_of_mem_greedy hleast hspan, ?_⟩, hfar⟩
    · rw [hstop]
      exact Text.allOf_runEnd cls.holds cs span.start
    · rw [hstop]
      exact Text.any_runEnd cls.holds cs span.start
  · rintro ⟨hrun, hfar⟩
    rw [hrun.stop_eq] at hfar
    obtain ⟨other, hother, hle, hlt⟩ := exists_greedy_covering hleast hfar
    have hstop := (stop_eq_of_mem_greedy hleast hother).1
    have hall := Text.allOf_runEnd cls.holds cs other.start
    rw [← hstop] at hall
    have hstart : span.start = other.start :=
      Nat.le_antisymm (hrun.start_le hall (Nat.le_of_lt hlt)) hle
    obtain ⟨start, stop⟩ := span
    obtain rfl : start = other.start := hstart
    obtain rfl : stop = other.stop := hrun.stop_eq.trans hstop.symm
    exact hother

end Greedy

end LineLint.Pattern
