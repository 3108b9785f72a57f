/-
**The occurrences of a pattern in a line.**

A line is searched from the left.  The search goes on where the last occurrence ended; after an
occurrence that spans nothing, the next one at the same place must span something.

Main definitions:

* `LineLint.Pattern.Span` — the span of an occurrence;
* `LineLint.Pattern.matchAt` — the match at a place;
* `LineLint.Pattern.firstFrom` — the first match from a place on;
* `LineLint.Pattern.occurrences` — all occurrences in a line, from left to right.
-/

import LineLint.Pattern.Matching

set_option relaxedAutoImplicit false
set_option autoImplicit false

namespace LineLint.Pattern

/-- The characters from `start` up to `stop`. -/
structure Span where
  start : Nat
  stop : Nat
  deriving DecidableEq, Repr

/-- Whether a span has no characters. -/
def Span.isEmpty (span : Span) : Bool := span.start == span.stop

/-- The match of a pattern at a place.  With `moving`, it has to span something. -/
def matchAt (text : Array Char) (pattern : Pattern) (moving : Bool) (start : Nat) : Option Span :=
  let accept : Rest := fun place => if moving && place.pos == start then none else some place
  (run text pattern accept ⟨start, []⟩).map (fun place => ⟨start, place.pos⟩)

/-- The first match among the `count` places from `start` on.  With `moving`, a match at the first
of them has to span something. -/
def firstFrom (text : Array Char) (pattern : Pattern) (moving : Bool) (start : Nat) :
    Nat → Option Span
  | 0 => none
  | count + 1 =>
    match matchAt text pattern moving start with
    | some span => some span
    | none => firstFrom text pattern false (start + 1) count

/-- The first match at a place from `start` up to the end of the line. -/
def search (text : Array Char) (pattern : Pattern) (moving : Bool) (start : Nat) : Option Span :=
  firstFrom text pattern moving start (text.size + 1 - start)

/-- Up to `count` occurrences from `start` on. -/
def occurrencesFrom (text : Array Char) (pattern : Pattern) :
    Nat → Bool → Nat → List Span
  | 0, _, _ => []
  | count + 1, moving, start =>
    match search text pattern moving start with
    | none => []
    | some span => span :: occurrencesFrom text pattern count span.isEmpty span.stop

/-- All occurrences in a line.  At every place there are at most two, one that spans nothing and
one that does. -/
def occurrences (text : Array Char) (pattern : Pattern) : List Span :=
  occurrencesFrom text pattern (2 * text.size + 2) false 0

/-- Whether a pattern occurs in a line. -/
def occursIn (text : Array Char) (pattern : Pattern) : Bool :=
  (search text pattern false 0).isSome

end LineLint.Pattern
