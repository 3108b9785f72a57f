/-
**Sets of code points given by their boundaries.**

A set of code points is stored as the ascending list of the places where membership changes: the
first boundary starts a run of members, the second ends it, and so on.  A code point belongs to the
set exactly when an odd number of boundaries are at or below it, so membership is one binary search.

Main definitions:

* `LineLint.Text.countUpTo` — how many entries of an ascending array are at most a given number;
* `LineLint.Text.inside` — membership in the set with the given boundaries.
-/

set_option relaxedAutoImplicit false
set_option autoImplicit false

namespace LineLint.Text

/-- The number of entries at most `code`, known to lie between `lo` and `hi`, of an ascending
array. -/
def countBetween (starts : Array Nat) (code lo hi : Nat) : Nat :=
  if lo < hi then
    let mid := (lo + hi) / 2
    if starts.getD mid 0 ≤ code then
      countBetween starts code (mid + 1) hi
    else
      countBetween starts code lo mid
  else
    lo
termination_by hi - lo

/-- The number of entries of the ascending array `starts` that are at most `code`. -/
def countUpTo (starts : Array Nat) (code : Nat) : Nat :=
  countBetween starts code 0 starts.size

/-- Membership of `code` in the set whose runs begin and end at `boundaries`, in turn. -/
def inside (boundaries : Array Nat) (code : Nat) : Bool :=
  countUpTo boundaries code % 2 == 1

end LineLint.Text
