/-
**What a pattern matches, and that matching finds it.**

The spans that a regular pattern matches are given by rules, one for each form of pattern, and
nothing is said about the order in which they are tried.  Matching by trying is sound and complete
for these rules: it hands on only places at which a match can end, and if what follows accepts
every such place, it does not fail.

Only repetitions need an argument for completeness.  A repetition leaves off after a further round
that did not move; but rounds beyond the least number that do not move can be left out of a match,
so that what remains takes one character at least in every round.

Main definitions:

* `LineLint.Pattern.Anchor.At` — the meaning of the anchors;
* `LineLint.Pattern.regular` — patterns without references, conditions on their surroundings and
  rounds that are never given up;
* `LineLint.Pattern.Matches`, `LineLint.Pattern.Rounds` — **the spans that a pattern matches**, once
  or a number of times;
* `LineLint.Pattern.Runs` — characters in a row that belong to a class;
* `LineLint.Pattern.Strides` — rounds that all move.

Main results:

* `LineLint.Pattern.matches_repeated_chars_iff` — a repetition of a class matches its runs;
* `LineLint.Pattern.Rounds.exists_strides` — rounds that do not move can be left out;
* `LineLint.Pattern.matches_of_run` — **matching is sound**;
* `LineLint.Pattern.isSome_run_of_matches` — **matching is complete**.
-/

import LineLint.Pattern.Matching
import LineLint.Proofs.Pattern.Bounds

set_option relaxedAutoImplicit false
set_option autoImplicit false

namespace LineLint.Pattern

/-! ### Anchors -/

/-- A word character stands right before the place. -/
def WordBefore (ascii : Bool) (text : Array Char) (place : Nat) : Prop :=
  ∃ c, 0 < place ∧ text[place - 1]? = some c ∧ Kind.word.holds ascii c = true

/-- A word character stands right after the place. -/
def WordAfter (ascii : Bool) (text : Array Char) (place : Nat) : Prop :=
  ∃ c, text[place]? = some c ∧ Kind.word.holds ascii c = true

/-- The meaning of the anchors. -/
def Anchor.At (text : Array Char) (place : Nat) : Anchor → Prop
  | .textStart => place = 0
  | .textEnd => place = text.size
  | .lineStart multiline => place = 0 ∨ multiline = true ∧ text[place - 1]? = some '\n'
  | .lineEnd multiline =>
    place = text.size ∨ text[place]? = some '\n' ∧ (multiline = true ∨ place + 1 = text.size)
  | .wordEdge ascii => ¬(WordBefore ascii text place ↔ WordAfter ascii text place)
  | .noWordEdge ascii =>
    text ≠ #[] ∧ (WordBefore ascii text place ↔ WordAfter ascii text place)

theorem isWordEdge_iff (ascii : Bool) (text : Array Char) (place : Nat) :
    isWordEdge ascii text place = true ↔
      ¬(WordBefore ascii text place ↔ WordAfter ascii text place) := by
  have hafter : ∀ i, ((text[i]?).any (Kind.word.holds ascii)) = true ↔ WordAfter ascii text i := by
    intro i
    rw [Option.any_eq_true]
    exact ⟨fun ⟨c, h, hc⟩ => ⟨c, h, hc⟩, fun ⟨c, h, hc⟩ => ⟨c, h, hc⟩⟩
  have hbefore : (decide (0 < place) && (text[place - 1]?).any (Kind.word.holds ascii)) = true ↔
      WordBefore ascii text place := by
    rw [Bool.and_eq_true, decide_eq_true_eq, hafter]
    exact ⟨fun ⟨h, c, hc, hc'⟩ => ⟨c, h, hc, hc'⟩, fun ⟨c, h, hc, hc'⟩ => ⟨h, c, hc, hc'⟩⟩
  rw [← hafter place, ← hbefore, isWordEdge, bne_iff_ne, ne_eq, Bool.eq_iff_iff]

theorem Anchor.holds_iff (text : Array Char) (place : Nat) (anchor : Anchor) :
    anchor.holds text place = true ↔ anchor.At text place := by
  cases anchor with
  | textStart => simp [Anchor.holds, Anchor.At]
  | textEnd => simp [Anchor.holds, Anchor.At]
  | lineStart multiline => simp [Anchor.holds, Anchor.At]
  | lineEnd multiline => simp [Anchor.holds, Anchor.At]
  | wordEdge ascii => exact isWordEdge_iff ascii text place
  | noWordEdge ascii =>
      rw [Anchor.holds, Anchor.At, Bool.and_eq_true, Bool.not_eq_true', Bool.not_eq_true',
        Array.isEmpty_eq_false_iff, ← Bool.not_eq_true, isWordEdge_iff, Classical.not_not]

/-! ### Regular patterns and their matches -/

/-- Whether a pattern is built from characters, anchors, sequences, alternatives, groups and
repetitions that give up rounds. -/
def regular : Pattern → Bool
  | .empty => true
  | .chars _ => true
  | .anchor _ => true
  | .seq first second => first.regular && second.regular
  | .alt first second => first.regular && second.regular
  | .group _ body => body.regular
  | .repeated body _ _ mode => body.regular && mode != .possessive
  | .backref _ _ _ => false
  | .lookAhead _ _ => false
  | .lookBehind _ _ _ => false
  | .atomic _ => false
  | .ifGroup _ _ _ => false

mutual

/-- A pattern matches the characters from one place up to another. -/
inductive Matches (text : Array Char) : Pattern → Nat → Nat → Prop
  | empty (i : Nat) : Matches text .empty i i
  | chars {cls : CharClass} {i : Nat} {c : Char} : text[i]? = some c → cls.holds c = true →
      Matches text (.chars cls) i (i + 1)
  | anchor {condition : Anchor} {i : Nat} : condition.At text i →
      Matches text (.anchor condition) i i
  | seq {first second : Pattern} {i j k : Nat} : Matches text first i j → Matches text second j k →
      Matches text (.seq first second) i k
  | altFirst {first second : Pattern} {i j : Nat} : Matches text first i j →
      Matches text (.alt first second) i j
  | altSecond {first second : Pattern} {i j : Nat} : Matches text second i j →
      Matches text (.alt first second) i j
  | group {index : Nat} {body : Pattern} {i j : Nat} : Matches text body i j →
      Matches text (.group index body) i j
  | repeated {body : Pattern} {least : Nat} {most : Option Nat} {mode : Mode} {count i j : Nat} :
      least ≤ count → (∀ m, most = some m → count ≤ m) → Rounds text body count i j →
      Matches text (.repeated body least most mode) i j

/-- A pattern matches a number of times in a row. -/
inductive Rounds (text : Array Char) : Pattern → Nat → Nat → Nat → Prop
  | none {body : Pattern} (i : Nat) : Rounds text body 0 i i
  | next {body : Pattern} {count i j k : Nat} : Matches text body i j →
      Rounds text body count j k → Rounds text body (count + 1) i k

end

variable {text : Array Char} {pattern body : Pattern}

/-! ### Rounds -/

theorem Rounds.append {m n i j k : Nat} (h : Rounds text body m i j)
    (h' : Rounds text body n j k) : Rounds text body (m + n) i k := by
  induction m generalizing i with
  | zero =>
      cases h
      rwa [Nat.zero_add]
  | succ m ih =>
      cases h with
      | next hfirst hrest =>
          rw [Nat.succ_add]
          exact .next hfirst (ih hrest)

theorem Rounds.split {m n i k : Nat} (h : Rounds text body (m + n) i k) :
    ∃ j, Rounds text body m i j ∧ Rounds text body n j k := by
  induction m generalizing i with
  | zero =>
      rw [Nat.zero_add] at h
      exact ⟨i, .none i, h⟩
  | succ m ih =>
      rw [Nat.succ_add] at h
      cases h with
      | next hfirst hrest =>
          obtain ⟨j, hj, hk⟩ := ih hrest
          exact ⟨j, .next hfirst hj, hk⟩

/-- A match does not go back, and it ends within the line if it spans something. -/
def Forward (text : Array Char) (i j : Nat) : Prop := i ≤ j ∧ (i < j → j ≤ text.size)

theorem Forward.refl (i : Nat) : Forward text i i :=
  ⟨Nat.le_refl _, fun hlt => absurd hlt (Nat.lt_irrefl _)⟩

theorem Forward.trans {i j k : Nat} (h : Forward text i j) (h' : Forward text j k) :
    Forward text i k := by
  obtain ⟨hle, hsize⟩ := h
  obtain ⟨hle', hsize'⟩ := h'
  refine ⟨Nat.le_trans hle hle', fun hlt => ?_⟩
  rcases Nat.eq_or_lt_of_le hle' with rfl | hlt'
  · exact hsize hlt
  · exact hsize' hlt'

theorem Rounds.forward {n i j : Nat} (hbody : ∀ i j, Matches text body i j → Forward text i j)
    (h : Rounds text body n i j) : Forward text i j := by
  induction n generalizing i with
  | zero =>
      cases h
      exact Forward.refl _
  | succ n ih =>
      cases h with
      | next hfirst hrest => exact (hbody _ _ hfirst).trans (ih hrest)

theorem Matches.forward {i j : Nat} (h : Matches text pattern i j) : Forward text i j := by
  induction pattern generalizing i j with
  | empty => cases h; exact Forward.refl _
  | anchor condition => cases h; exact Forward.refl _
  | chars cls =>
      cases h with
      | chars hc _ => exact ⟨Nat.le_succ _, fun _ => (Array.getElem?_eq_some_iff.1 hc).1⟩
  | seq first second ihfirst ihsecond =>
      cases h with
      | seq hfirst hsecond => exact (ihfirst hfirst).trans (ihsecond hsecond)
  | alt first second ihfirst ihsecond =>
      cases h with
      | altFirst h => exact ihfirst h
      | altSecond h => exact ihsecond h
  | group index body ih =>
      cases h with
      | group h => exact ih h
  | repeated body least most mode ih =>
      cases h with
      | repeated _ _ hrounds => exact hrounds.forward fun i j h => ih h
  | backref => cases h
  | lookAhead => cases h
  | lookBehind => cases h
  | atomic => cases h
  | ifGroup => cases h

/-! ### Runs of one class -/

/-- All characters from one place up to another belong to a class. -/
def Runs (text : Array Char) (cls : CharClass) (i j : Nat) : Prop :=
  ∀ m, i ≤ m → m < j → ∃ c, text[m]? = some c ∧ cls.holds c = true

theorem rounds_chars_iff {cls : CharClass} {count i j : Nat} :
    Rounds text (.chars cls) count i j ↔ j = i + count ∧ Runs text cls i j := by
  induction count generalizing i with
  | zero =>
      constructor
      · intro h
        cases h
        exact ⟨rfl, fun m hle hlt => absurd hle (by omega)⟩
      · rintro ⟨rfl, -⟩
        exact .none _
  | succ count ih =>
      constructor
      · intro h
        cases h with
        | next hfirst hrest =>
            cases hfirst with
            | chars hc hcls =>
                obtain ⟨rfl, hruns⟩ := ih.1 hrest
                refine ⟨by omega, fun m hle hlt => ?_⟩
                rcases Nat.eq_or_lt_of_le hle with rfl | hlt'
                · exact ⟨_, hc, hcls⟩
                · exact hruns m hlt' hlt
      · rintro ⟨rfl, hruns⟩
        obtain ⟨c, hc, hcls⟩ := hruns i (Nat.le_refl _) (by omega)
        refine .next (.chars hc hcls) (ih.2 ⟨by omega, fun m hle hlt => ?_⟩)
        exact hruns m (by omega) hlt

/-- A repetition of a class matches the runs of it whose lengths are within the bounds. -/
theorem matches_repeated_chars_iff {cls : CharClass} {least : Nat} {most : Option Nat} {mode : Mode}
    {i j : Nat} :
    Matches text (.repeated (.chars cls) least most mode) i j ↔
      i + least ≤ j ∧ (∀ m, most = some m → j ≤ i + m) ∧ Runs text cls i j := by
  constructor
  · intro h
    cases h with
    | repeated hleast hmost hrounds =>
        obtain ⟨rfl, hruns⟩ := rounds_chars_iff.1 hrounds
        exact ⟨by omega, fun m hm => Nat.add_le_add_left (hmost m hm) i, hruns⟩
  · rintro ⟨hleast, hmost, hruns⟩
    have hrounds : Rounds text (.chars cls) (j - i) i j :=
      rounds_chars_iff.2 ⟨by omega, hruns⟩
    refine .repeated (by omega) (fun m hm => ?_) hrounds
    have hle := hmost m hm
    omega

/-! ### Rounds that move -/

/-- A pattern matches a number of times in a row, and spans something every time. -/
inductive Strides (text : Array Char) (body : Pattern) : Nat → Nat → Nat → Prop
  | none (i : Nat) : Strides text body 0 i i
  | next {count i j k : Nat} : Matches text body i j → i < j → Strides text body count j k →
      Strides text body (count + 1) i k

/-- Rounds that do not move can be left out. -/
theorem Rounds.exists_strides {n i j : Nat} (h : Rounds text body n i j) :
    ∃ count, count ≤ n ∧ Strides text body count i j := by
  induction n generalizing i with
  | zero =>
      cases h
      exact ⟨0, Nat.le_refl _, .none _⟩
  | succ n ih =>
      cases h with
      | next hfirst hrest =>
          obtain ⟨count, hcount, hstrides⟩ := ih hrest
          rcases Nat.eq_or_lt_of_le hfirst.forward.1 with rfl | hlt
          · exact ⟨count, Nat.le_succ_of_le hcount, hstrides⟩
          · exact ⟨count + 1, Nat.succ_le_succ hcount, .next hfirst hlt hstrides⟩

/-- Rounds that move take a character each, so there are no more of them than characters. -/
theorem Strides.count_le {count i j : Nat} (h : Strides text body count i j) :
    count ≤ text.size - i := by
  induction h with
  | none => exact Nat.zero_le _
  | next hfirst hlt _ ih =>
      have hsize := hfirst.forward.2 hlt
      omega

/-! ### Soundness -/

/-- A matcher hands on only places at which the pattern can end. -/
def Sound (text : Array Char) (pattern : Pattern) (step : Step) : Prop :=
  ∀ (rest : Rest) (place result : Place), step rest place = some result →
    ∃ next : Place, Matches text pattern place.pos next.pos ∧ rest next = some result

theorem rounds_sound {step : Step} (h : Sound text body step) {count : Nat} {rest : Rest}
    {place result : Place} (hrounds : rounds step count rest place = some result) :
    ∃ next : Place, Rounds text body count place.pos next.pos ∧ rest next = some result := by
  induction count generalizing place with
  | zero => exact ⟨place, .none _, hrounds⟩
  | succ count ih =>
      obtain ⟨mid, hmid, hrounds⟩ := h _ place result hrounds
      obtain ⟨next, hnext, hrest⟩ := ih hrounds
      exact ⟨next, .next hmid hnext, hrest⟩

theorem further_sound {step : Step} (h : Sound text body step) {eager : Bool} {count : Nat}
    {last : Option Nat} {rest : Rest} {place result : Place}
    (hfurther : further step eager count last rest place = some result) :
    ∃ (n : Nat) (next : Place), n ≤ count ∧ Rounds text body n place.pos next.pos ∧
      rest next = some result := by
  induction count generalizing last place with
  | zero => exact ⟨0, place, Nat.le_refl _, .none _, hfurther⟩
  | succ count ih =>
      rcases rest_or_body_of_further hfurther with hrest | hstep
      · exact ⟨0, place, Nat.zero_le _, .none _, hrest⟩
      · obtain ⟨mid, hmid, hfurther⟩ := h _ place result hstep
        obtain ⟨n, next, hn, hnext, hrest⟩ := ih hfurther
        exact ⟨n + 1, next, Nat.succ_le_succ hn, .next hmid hnext, hrest⟩

/-- What a repetition does that gives up rounds. -/
theorem run_repeated {least : Nat} {most : Option Nat} {mode : Mode} (hmode : mode ≠ .possessive)
    (rest : Rest) (place : Place) :
    run text (.repeated body least most mode) rest place =
      rounds (run text body) least
        (fun inner =>
          further (run text body) (mode = .greedy) (furtherBound text least most inner) none
            rest inner)
        place := by
  cases mode with
  | greedy => rfl
  | «lazy» => rfl
  | possessive => exact absurd rfl hmode

/-- **Matching is sound**: it hands on only places at which the pattern can end. -/
theorem matches_of_run (hregular : pattern.regular = true) (hbounds : pattern.InOrder) :
    Sound text pattern (run text pattern) := by
  induction pattern with
  | empty => exact fun rest place result hrest => ⟨place, .empty _, hrest⟩
  | chars cls =>
      intro rest place result hrun
      simp only [run] at hrun
      split at hrun
      · next c hc =>
          split at hrun
          · next hcls => exact ⟨place.forward 1, .chars hc hcls, hrun⟩
          · cases hrun
      · cases hrun
  | anchor condition =>
      intro rest place result hrun
      simp only [run] at hrun
      split at hrun
      · next hholds => exact ⟨place, .anchor ((condition.holds_iff text _).1 hholds), hrun⟩
      · cases hrun
  | seq first second ihfirst ihsecond =>
      obtain ⟨hfirst, hsecond⟩ := Bool.and_eq_true_iff.1 hregular
      obtain ⟨hbounds, hbounds'⟩ := hbounds
      intro rest place result hrun
      obtain ⟨mid, hmid, hrun⟩ := ihfirst hfirst hbounds _ place result hrun
      obtain ⟨next, hnext, hrest⟩ := ihsecond hsecond hbounds' rest mid result hrun
      exact ⟨next, .seq hmid hnext, hrest⟩
  | alt first second ihfirst ihsecond =>
      obtain ⟨hfirst, hsecond⟩ := Bool.and_eq_true_iff.1 hregular
      obtain ⟨hbounds, hbounds'⟩ := hbounds
      intro rest place result hrun
      simp only [run] at hrun
      split at hrun
      · next found hfound =>
          have hrun := hfound.trans hrun
          obtain ⟨next, hnext, hrest⟩ := ihfirst hfirst hbounds rest place result hrun
          exact ⟨next, .altFirst hnext, hrest⟩
      · obtain ⟨next, hnext, hrest⟩ := ihsecond hsecond hbounds' rest place result hrun
        exact ⟨next, .altSecond hnext, hrest⟩
  | group index body ih =>
      intro rest place result hrun
      obtain ⟨next, hnext, hrest⟩ := ih hregular hbounds _ place result hrun
      exact ⟨next.capture index place.pos, .group hnext, hrest⟩
  | repeated body least most mode ih =>
      obtain ⟨hbody, hmode⟩ := Bool.and_eq_true_iff.1 hregular
      obtain ⟨hinside, hbounds⟩ := hbounds
      have ih := ih hbody hinside
      intro rest place result hrun
      rw [run_repeated (by simpa using hmode)] at hrun
      obtain ⟨inner, hinner, hfurther⟩ := rounds_sound ih hrun
      obtain ⟨n, next, hn, hnext, hrest⟩ := further_sound ih hfurther
      -- the least number of rounds and the further ones together keep to the bounds
      refine ⟨next, .repeated (Nat.le_add_right least n) ?_ (hinner.append hnext), hrest⟩
      rintro m rfl
      have hle : least ≤ m := hbounds m rfl
      simp only [furtherBound] at hn
      omega
  | backref => cases hregular
  | lookAhead => cases hregular
  | lookBehind => cases hregular
  | atomic => cases hregular
  | ifGroup => cases hregular

/-! ### Completeness -/

/-- A matcher does not fail if what follows accepts every place at which the pattern ends. -/
def Complete (text : Array Char) (pattern : Pattern) (step : Step) : Prop :=
  ∀ (rest : Rest) (place : Place) (stop : Nat), Matches text pattern place.pos stop →
    (∀ next : Place, next.pos = stop → (rest next).isSome) → (step rest place).isSome

theorem rounds_complete {step : Step} (h : Complete text body step) {count stop : Nat} {rest : Rest}
    {place : Place} (hrounds : Rounds text body count place.pos stop)
    (hrest : ∀ next : Place, next.pos = stop → (rest next).isSome) :
    (rounds step count rest place).isSome := by
  induction count generalizing place with
  | zero =>
      cases hrounds
      exact hrest place rfl
  | succ count ih =>
      cases hrounds with
      | next hfirst hrounds =>
          refine h _ place _ hfirst fun mid hmid => ih ?_
          rwa [hmid]

theorem further_complete {step : Step} (h : Complete text body step) {eager : Bool}
    {count n stop : Nat} {last : Option Nat} {rest : Rest} {place : Place} (hn : n ≤ count)
    (hlast : last ≠ some place.pos) (hstrides : Strides text body n place.pos stop)
    (hrest : ∀ next : Place, next.pos = stop → (rest next).isSome) :
    (further step eager count last rest place).isSome := by
  induction count generalizing n last place with
  | zero =>
      obtain rfl := Nat.le_zero.1 hn
      cases hstrides
      exact isSome_further_of_rest (hrest place rfl)
  | succ count ih =>
      cases hstrides with
      | none => exact isSome_further_of_rest (hrest place rfl)
      | next hfirst hlt hstrides =>
          -- the round moves, so another one may follow it
          refine isSome_further_of_body hlast (h _ place _ hfirst fun mid hmid => ?_)
          refine ih (Nat.le_of_succ_le_succ hn) ?_ (by rwa [hmid])
          simp only [ne_eq, Option.some.injEq, hmid]
          omega

/-- **Matching is complete**: it does not fail if what follows accepts every place at which the
pattern ends. -/
theorem isSome_run_of_matches (hregular : pattern.regular = true) :
    Complete text pattern (run text pattern) := by
  induction pattern with
  | empty =>
      intro rest place stop hmatch hrest
      cases hmatch
      exact hrest place rfl
  | chars cls =>
      intro rest place stop hmatch hrest
      cases hmatch with
      | chars hc hcls =>
          simp only [run, hc, hcls, if_true]
          exact hrest (place.forward 1) rfl
  | anchor condition =>
      intro rest place stop hmatch hrest
      cases hmatch with
      | anchor hholds =>
          rw [run, if_pos ((condition.holds_iff text _).2 hholds)]
          exact hrest place rfl
  | seq first second ihfirst ihsecond =>
      obtain ⟨hfirst, hsecond⟩ := Bool.and_eq_true_iff.1 hregular
      intro rest place stop hmatch hrest
      cases hmatch with
      | seq hmid hstop =>
          refine ihfirst hfirst _ place _ hmid fun mid hpos => ?_
          exact ihsecond hsecond rest mid stop (by rwa [hpos]) hrest
  | alt first second ihfirst ihsecond =>
      obtain ⟨hfirst, hsecond⟩ := Bool.and_eq_true_iff.1 hregular
      intro rest place stop hmatch hrest
      simp only [run]
      split
      · rfl
      · next hnone =>
          cases hmatch with
          | altFirst hmatch =>
              have hsome := ihfirst hfirst rest place stop hmatch hrest
              simp [hnone] at hsome
          | altSecond hmatch => exact ihsecond hsecond rest place stop hmatch hrest
  | group index body ih =>
      intro rest place stop hmatch hrest
      cases hmatch with
      | group hmatch =>
          exact ih hregular _ place stop hmatch fun next hnext => hrest (next.capture _ _) hnext
  | repeated body least most mode ih =>
      obtain ⟨hbody, hmode⟩ := Bool.and_eq_true_iff.1 hregular
      intro rest place stop hmatch hrest
      cases hmatch with
      | @repeated _ _ _ _ count _ _ hleast hmost hrounds =>
          obtain ⟨extra, rfl⟩ := Nat.exists_eq_add_of_le hleast
          obtain ⟨mid, hfirst, hfurther⟩ := hrounds.split
          -- of the further rounds only those that move are made
          obtain ⟨n, hn, hstrides⟩ := hfurther.exists_strides
          rw [run_repeated (by simpa using hmode)]
          refine rounds_complete (ih hbody) hfirst fun inner hinner => ?_
          subst hinner
          refine further_complete (ih hbody) ?_ (by simp) hstrides hrest
          cases most with
          | none => exact Nat.le_succ_of_le hstrides.count_le
          | some m =>
              have hle := hmost m rfl
              simp only [furtherBound]
              omega
  | backref => cases hregular
  | lookAhead => cases hregular
  | lookBehind => cases hregular
  | atomic => cases hregular
  | ifGroup => cases hregular

end LineLint.Pattern
