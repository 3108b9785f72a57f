/-
**Matching never goes back.**

Whatever a pattern does on the way, looking back and giving up rounds included, the place it hands
on to what follows is not before the place it began at, and not beyond the end of the line.

Main definitions:

* `LineLint.Pattern.Advances` — a matcher that only moves forward, within the line.

Main results:

* `LineLint.Pattern.advances_rounds`, `LineLint.Pattern.advances_further` — the rounds of a
  repetition move forward when each of them does;
* `LineLint.Pattern.advances_run` — **matching any pattern moves forward**.
-/

import LineLint.Pattern.Matching

set_option relaxedAutoImplicit false
set_option autoImplicit false

namespace LineLint.Pattern

/-- A matcher hands on only places from the one it is given up to the end of the line. -/
def Advances (size : Nat) (step : Step) : Prop :=
  ∀ (rest : Rest) (place result : Place), place.pos ≤ size → step rest place = some result →
    ∃ next : Place, place.pos ≤ next.pos ∧ next.pos ≤ size ∧ rest next = some result

variable {size : Nat}

/-- Nothing following, the place where matching ends is the result. -/
theorem Advances.le_of_some {step : Step} (h : Advances size step) {place result : Place}
    (hplace : place.pos ≤ size) (hstep : step some place = some result) :
    place.pos ≤ result.pos ∧ result.pos ≤ size := by
  obtain ⟨next, hle, hsize, hnext⟩ := h some place result hplace hstep
  cases hnext
  exact ⟨hle, hsize⟩

/-! ### Rounds -/

theorem advances_rounds {body : Step} (h : Advances size body) (count : Nat) :
    Advances size (rounds body count) := by
  induction count with
  | zero => exact fun rest place result hplace hrest => ⟨place, Nat.le_refl _, hplace, hrest⟩
  | succ count ih =>
      intro rest place result hplace hrounds
      obtain ⟨mid, hmid, hsize, hrounds⟩ := h _ place result hplace hrounds
      obtain ⟨next, hnext, hsize, hrest⟩ := ih rest mid result hsize hrounds
      exact ⟨next, Nat.le_trans hmid hnext, hsize, hrest⟩

theorem advances_further {body : Step} (h : Advances size body) (eager : Bool) (count : Nat)
    (last : Option Nat) : Advances size (further body eager count last) := by
  induction count generalizing last with
  | zero => exact fun rest place result hplace hrest => ⟨place, Nat.le_refl _, hplace, hrest⟩
  | succ count ih =>
      intro rest place result hplace hfurther
      rcases rest_or_body_of_further hfurther with hrest | hbody
      · exact ⟨place, Nat.le_refl _, hplace, hrest⟩
      · obtain ⟨mid, hmid, hsize, hfurther⟩ := h _ place result hplace hbody
        obtain ⟨next, hnext, hsize, hrest⟩ := ih _ rest mid result hsize hfurther
        exact ⟨next, Nat.le_trans hmid hnext, hsize, hrest⟩

theorem firmRounds_le {step : Step} (h : Advances size step) {count : Nat} {place result : Place}
    (hplace : place.pos ≤ size) (hrounds : firmRounds (step some) count place = some result) :
    place.pos ≤ result.pos ∧ result.pos ≤ size := by
  induction count generalizing place with
  | zero =>
      cases hrounds
      exact ⟨Nat.le_refl _, hplace⟩
  | succ count ih =>
      obtain ⟨mid, hmid, hrounds⟩ := Option.bind_eq_some_iff.1 hrounds
      obtain ⟨hle, hsize⟩ := h.le_of_some hplace hmid
      obtain ⟨hle', hsize'⟩ := ih hsize hrounds
      exact ⟨Nat.le_trans hle hle', hsize'⟩

theorem exhaust_le {step : Step} (h : Advances size step) (count : Nat) {place : Place}
    (hplace : place.pos ≤ size) :
    place.pos ≤ (exhaust (step some) count place).pos ∧
      (exhaust (step some) count place).pos ≤ size := by
  induction count generalizing place with
  | zero => exact ⟨Nat.le_refl _, hplace⟩
  | succ count ih =>
      unfold exhaust
      split
      · exact ⟨Nat.le_refl _, hplace⟩
      · next next hnext =>
          obtain ⟨hle, hsize⟩ := h.le_of_some hplace hnext
          split
          · exact ⟨hle, hsize⟩
          · obtain ⟨hle', hsize'⟩ := ih hsize
            exact ⟨Nat.le_trans hle hle', hsize'⟩

/-! ### Patterns -/

/-- Characters that stand again end within the line. -/
theorem standsAgain_le {text : Array Char} {ignoreCase ascii : Bool} {start stop pos : Nat}
    (hpos : pos ≤ text.size) (h : standsAgain text ignoreCase ascii start stop pos = true) :
    pos + (stop - start) ≤ text.size := by
  rcases Nat.eq_zero_or_pos (stop - start) with hzero | hpositive
  · omega
  · have hlast := List.all_eq_true.1 h (stop - start - 1) (List.mem_range.2 (by omega))
    split at hlast
    · next a b ha hb =>
        have hlt := (Array.getElem?_eq_some_iff.1 hb).1
        omega
    · cases hlast

/-- **Matching any pattern moves forward**, within the line. -/
theorem advances_run (text : Array Char) (pattern : Pattern) :
    Advances text.size (run text pattern) := by
  induction pattern with
  | empty => exact fun rest place result hplace hrest => ⟨place, Nat.le_refl _, hplace, hrest⟩
  | chars cls =>
      intro rest place result hplace hrun
      simp only [run] at hrun
      split at hrun
      · next c hc =>
          split at hrun
          · have hlt := (Array.getElem?_eq_some_iff.1 hc).1
            exact ⟨place.forward 1, Nat.le_succ _, hlt, hrun⟩
          · cases hrun
      · cases hrun
  | anchor condition =>
      intro rest place result hplace hrun
      simp only [run] at hrun
      split at hrun
      · exact ⟨place, Nat.le_refl _, hplace, hrun⟩
      · cases hrun
  | seq first second ihfirst ihsecond =>
      intro rest place result hplace hrun
      obtain ⟨mid, hmid, hsize, hrun⟩ := ihfirst _ place result hplace hrun
      obtain ⟨next, hnext, hsize, hrest⟩ := ihsecond rest mid result hsize hrun
      exact ⟨next, Nat.le_trans hmid hnext, hsize, hrest⟩
  | alt first second ihfirst ihsecond =>
      intro rest place result hplace hrun
      simp only [run] at hrun
      split at hrun
      · next found hfound => exact ihfirst rest place result hplace (hfound.trans hrun)
      · exact ihsecond rest place result hplace hrun
  | group index body ih =>
      intro rest place result hplace hrun
      obtain ⟨next, hnext, hsize, hrest⟩ := ih _ place result hplace hrun
      exact ⟨next.capture index place.pos, hnext, hsize, hrest⟩
  | backref index ignoreCase ascii =>
      intro rest place result hplace hrun
      simp only [run] at hrun
      split at hrun
      · cases hrun
      · next span hspan =>
          split at hrun
          · next hagain =>
              exact ⟨_, Nat.le_add_right _ _, standsAgain_le hplace hagain, hrun⟩
          · cases hrun
  | repeated body least most mode ih =>
      intro rest place result hplace hrun
      simp only [run] at hrun
      split at hrun
      · split at hrun
        · cases hrun
        · next inner hinner =>
            obtain ⟨hle, hsize⟩ := firmRounds_le ih hplace hinner
            obtain ⟨hle', hsize'⟩ := exhaust_le ih (furtherBound text least most inner) hsize
            exact ⟨_, Nat.le_trans hle hle', hsize', hrun⟩
      · obtain ⟨inner, hinner, hsize, hrun⟩ :=
          advances_rounds ih least _ place result hplace hrun
        obtain ⟨next, hnext, hsize, hrest⟩ :=
          advances_further ih _ _ none rest inner result hsize hrun
        exact ⟨next, Nat.le_trans hinner hnext, hsize, hrest⟩
  | lookAhead positive body ih =>
      intro rest place result hplace hrun
      simp only [run] at hrun
      split at hrun
      · next inner hinner =>
          split at hrun
          · exact ⟨{ inner with pos := place.pos }, Nat.le_refl _, hplace, hrun⟩
          · cases hrun
      · split at hrun
        · cases hrun
        · exact ⟨place, Nat.le_refl _, hplace, hrun⟩
  | lookBehind positive width body ih =>
      intro rest place result hplace hrun
      simp only [run] at hrun
      split at hrun
      · split at hrun
        · next inner hinner =>
            split at hrun
            · exact ⟨{ inner with pos := place.pos }, Nat.le_refl _, hplace, hrun⟩
            · cases hrun
        · split at hrun
          · cases hrun
          · exact ⟨place, Nat.le_refl _, hplace, hrun⟩
      · split at hrun
        · cases hrun
        · exact ⟨place, Nat.le_refl _, hplace, hrun⟩
  | atomic body ih =>
      intro rest place result hplace hrun
      simp only [run] at hrun
      split at hrun
      · next inner hinner =>
          obtain ⟨hle, hsize⟩ := ih.le_of_some hplace hinner
          exact ⟨inner, hle, hsize, hrun⟩
      · cases hrun
  | ifGroup index present absent ihpresent ihabsent =>
      intro rest place result hplace hrun
      simp only [run] at hrun
      split at hrun
      · exact ihpresent rest place result hplace hrun
      · exact ihabsent rest place result hplace hrun

end LineLint.Pattern
