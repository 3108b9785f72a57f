/-
**Matching a pattern at a place.**

Matching tries the ways a pattern can go in a fixed order and hands every place it can end at to
what follows, until that accepts one.  What follows is a function, so alternatives, repetitions and
groups come back for another try exactly when everything after them has failed.

A repetition first makes its least number of rounds.  After that a round is only tried if the last
one of these further rounds began at another place; so a body that spans nothing is entered at most
once more at the same place, and the number of rounds is bounded by what is left of the line.

Main definitions:

* `LineLint.Pattern.Place` — where matching stands, and what the groups have spanned;
* `LineLint.Pattern.rounds`, `LineLint.Pattern.further`, `LineLint.Pattern.exhaust` — rounds of a
  repetition;
* `LineLint.Pattern.run` — matching a pattern and what follows it.
-/

import LineLint.Pattern.Basic

set_option relaxedAutoImplicit false
set_option autoImplicit false

namespace LineLint.Pattern

/-- The span of a group: its number, its start and its end. -/
structure Capture where
  index : Nat
  start : Nat
  stop : Nat
  deriving DecidableEq, Repr

/-- Where matching stands. -/
structure Place where
  /-- The number of characters before the place. -/
  pos : Nat
  /-- The spans of groups, latest first. -/
  captures : List Capture := []
  deriving DecidableEq, Repr

namespace Place

/-- The place `count` characters further on. -/
def forward (place : Place) (count : Nat) : Place :=
  { place with pos := place.pos + count }

/-- The place with one more span. -/
def capture (place : Place) (index start : Nat) : Place :=
  { place with captures := ⟨index, start, place.pos⟩ :: place.captures }

/-- The latest span of a group. -/
def span? (place : Place) (index : Nat) : Option Capture :=
  place.captures.find? (fun c => c.index == index)

end Place

/-- What is left to match from a place on: the place where all of it ends, if it can. -/
abbrev Rest := Place → Option Place

/-- A matcher: given what follows, what is to be matched from a place on. -/
abbrev Step := Rest → Rest

/-! ### Rounds of a repetition -/

/-- Exactly so many rounds, and then the rest. -/
def rounds (body : Step) : Nat → Rest → Rest
  | 0, rest, place => rest place
  | count + 1, rest, place => body (rounds body count rest) place

/-- Up to so many further rounds, and then the rest.  `last` is where the last further round
began. -/
def further (body : Step) (eager : Bool) : Nat → Option Nat → Rest → Rest
  | 0, _, rest, place => rest place
  | count + 1, last, rest, place =>
    if last = some place.pos then
      rest place
    else if eager then
      match body (further body eager count (some place.pos) rest) place with
      | some result => some result
      | none => rest place
    else
      match rest place with
      | some result => some result
      | none => body (further body eager count (some place.pos) rest) place

section Further

variable {body : Step} {eager : Bool} {count : Nat} {last : Option Nat} {rest : Rest}
  {place result : Place}

/-- Either what follows takes the place itself, or another round comes first. -/
theorem rest_or_body_of_further (h : further body eager (count + 1) last rest place = some result) :
    rest place = some result ∨
      body (further body eager count (some place.pos) rest) place = some result := by
  unfold further at h
  split at h
  · exact Or.inl h
  · split at h
    · split at h
      · next found hbody => exact Or.inr (hbody.trans h)
      · exact Or.inl h
    · split at h
      · next found hrest => exact Or.inl (hrest.trans h)
      · exact Or.inr h

theorem isSome_further_of_rest (h : (rest place).isSome) :
    (further body eager count last rest place).isSome := by
  cases count with
  | zero => exact h
  | succ count =>
      unfold further
      split
      · exact h
      · split
        · split
          · rfl
          · exact h
        · split
          · rfl
          · next hnone => simp [hnone] at h

theorem isSome_further_of_body (hlast : last ≠ some place.pos)
    (h : (body (further body eager count (some place.pos) rest) place).isSome) :
    (further body eager (count + 1) last rest place).isSome := by
  unfold further
  rw [if_neg hlast]
  split
  · split
    · rfl
    · next hnone => simp [hnone] at h
  · split
    · rfl
    · exact h

end Further

/-- Exactly so many rounds, each of which takes its first match. -/
def firmRounds (body : Rest) : Nat → Rest
  | 0, place => some place
  | count + 1, place => (body place).bind (firmRounds body count)

/-- Up to so many rounds, each of which takes its first match, for as long as they move. -/
def exhaust (body : Rest) : Nat → Place → Place
  | 0, place => place
  | count + 1, place =>
    match body place with
    | none => place
    | some next => if next.pos = place.pos then next else exhaust body count next

/-- The number of further rounds that can matter: up to the greatest number, or one for every
character that is left and one that spans nothing. -/
def furtherBound (text : Array Char) (least : Nat) (most : Option Nat) (place : Place) : Nat :=
  match most with
  | some most => most - least
  | none => text.size - place.pos + 1

/-! ### Matching -/

/-- Whether the characters from `start` to `stop` stand again at `pos`. -/
def standsAgain (text : Array Char) (ignoreCase ascii : Bool) (start stop pos : Nat) : Bool :=
  (List.range (stop - start)).all (fun i =>
    match text[start + i]?, text[pos + i]? with
    | some a, some b => foldChar ignoreCase ascii a == foldChar ignoreCase ascii b
    | _, _ => false)

/-- Matches a pattern at a place of the line, and then the rest. -/
def run (text : Array Char) : Pattern → Step
  | .empty, rest, place => rest place
  | .chars cls, rest, place =>
    match text[place.pos]? with
    | some c => if cls.holds c then rest (place.forward 1) else none
    | none => none
  | .anchor condition, rest, place =>
    if condition.holds text place.pos then rest place else none
  | .seq first second, rest, place => run text first (run text second rest) place
  | .alt first second, rest, place =>
    match run text first rest place with
    | some result => some result
    | none => run text second rest place
  | .group index body, rest, place =>
    run text body (fun inner => rest (inner.capture index place.pos)) place
  | .backref index ignoreCase ascii, rest, place =>
    match place.span? index with
    | none => none
    | some span =>
      if standsAgain text ignoreCase ascii span.start span.stop place.pos then
        rest (place.forward (span.stop - span.start))
      else
        none
  | .repeated body least most mode, rest, place =>
    match mode with
    | .possessive =>
      match firmRounds (run text body some) least place with
      | none => none
      | some inner =>
        rest (exhaust (run text body some) (furtherBound text least most inner) inner)
    | mode =>
      rounds (run text body) least
        (fun inner =>
          further (run text body) (mode = .greedy) (furtherBound text least most inner) none
            rest inner)
        place
  | .lookAhead positive body, rest, place =>
    match run text body some place with
    | some inner => if positive then rest { inner with pos := place.pos } else none
    | none => if positive then none else rest place
  | .lookBehind positive width body, rest, place =>
    if width ≤ place.pos then
      match run text body some { place with pos := place.pos - width } with
      | some inner => if positive then rest { inner with pos := place.pos } else none
      | none => if positive then none else rest place
    else if positive then none
    else rest place
  | .atomic body, rest, place =>
    match run text body some place with
    | some inner => rest inner
    | none => none
  | .ifGroup index present absent, rest, place =>
    if (place.span? index).isSome then run text present rest place else run text absent rest place

end LineLint.Pattern
