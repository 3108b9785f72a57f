/-
**How many characters a pattern can span.**

A pattern that looks behind has to know how far back it begins, so its body must always span the
same number of characters.

Main definitions:

* `LineLint.Pattern.Width` — the least and the greatest number of characters;
* `LineLint.Pattern.width` — the width of a pattern, given those of its groups;
* `LineLint.Pattern.Width.fixed?` — the number of characters, if there is only one;
* `LineLint.Pattern.lateFault?` — what is wrong with a pattern that has been read to its end.
-/

import LineLint.Pattern.Basic
import LineLint.Pattern.Fault

set_option relaxedAutoImplicit false
set_option autoImplicit false

namespace LineLint.Pattern

/-- The least and the greatest number of characters; `none` is no bound. -/
structure Width where
  least : Nat
  greatest : Option Nat
  deriving DecidableEq, Repr

namespace Width

/-- The width of one pattern after another. -/
def add (first second : Width) : Width :=
  ⟨first.least + second.least,
   match first.greatest, second.greatest with
   | some a, some b => some (a + b)
   | _, _ => none⟩

/-- The width of one pattern or another. -/
def union (first second : Width) : Width :=
  ⟨min first.least second.least,
   match first.greatest, second.greatest with
   | some a, some b => some (max a b)
   | _, _ => none⟩

/-- The width of repetitions. -/
def times (body : Width) (least : Nat) (most : Option Nat) : Width :=
  ⟨body.least * least,
   match body.greatest, most with
   | some 0, _ => some 0
   | some a, some b => some (a * b)
   | none, some 0 => some 0
   | _, _ => none⟩

/-- The number of characters, if there is only one. -/
def fixed? (width : Width) : Option Nat :=
  if width.greatest = some width.least then some width.least else none

end Width

/-- The width of a pattern, given the widths of the groups it refers to. -/
def width (groups : Nat → Width) : Pattern → Width
  | .empty => ⟨0, some 0⟩
  | .chars _ => ⟨1, some 1⟩
  | .anchor _ => ⟨0, some 0⟩
  | .seq first second => (width groups first).add (width groups second)
  | .alt first second => (width groups first).union (width groups second)
  | .group _ body => width groups body
  | .backref index _ _ => groups index
  | .repeated body least most _ => (width groups body).times least most
  | .lookAhead _ _ => ⟨0, some 0⟩
  | .lookBehind _ _ _ => ⟨0, some 0⟩
  | .atomic body => width groups body
  | .ifGroup _ present absent => (width groups present).union (width groups absent)

/-! ### Faults of a whole pattern -/

/-- The greatest number of characters that a pattern can look behind. -/
def behindLimit : Nat := 4294967295

/-- The name of a repetition in messages. -/
def Mode.operator : Mode → String
  | .greedy => "MAX_REPEAT"
  | .lazy => "MIN_REPEAT"
  | .possessive => "POSSESSIVE_REPEAT"

/-- The first fault, from left to right and from outside to inside, that shows only when a pattern
has been read to its end.  In a template there is no repetition. -/
def lateFault? (template : Bool) (groups : Nat → Width) : Pattern → Option Fault
  | .seq first second =>
    (lateFault? template groups first).or (lateFault? template groups second)
  | .alt first second =>
    (lateFault? template groups first).or (lateFault? template groups second)
  | .group _ body => lateFault? template groups body
  | .repeated body _ _ mode =>
    if template then some (.repetitionInTemplate mode.operator)
    else lateFault? template groups body
  | .lookAhead _ body => lateFault? template groups body
  | .lookBehind _ _ body =>
    let reach := width groups body
    if behindLimit < reach.least then some .distantLookBehind
    else if reach.fixed?.isNone then some .variableLookBehind
    else lateFault? template groups body
  | .atomic body => lateFault? template groups body
  | .ifGroup _ present absent =>
    (lateFault? template groups present).or (lateFault? template groups absent)
  | .empty | .chars _ | .anchor _ | .backref _ _ _ => none

end LineLint.Pattern
