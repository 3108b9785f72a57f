/-
**Texts to lint.**

Main definitions:

* `LineLint.SourceUnit` — a text and the name it is reported under;
* `LineLint.Event` — what reading input gives: a text, or a message;
* `LineLint.Event.units`, `LineLint.Event.entries` — the texts and the messages of events.

Main results:

* `LineLint.Event.units_append`, `LineLint.Event.entries_append` — events one after the other;
* `LineLint.Event.units_map_found`, `LineLint.Event.entries_map_found` — events that are all texts.
-/

import LineLint.Log

set_option relaxedAutoImplicit false
set_option autoImplicit false

namespace LineLint

/-- A text and the name it is reported under. -/
structure SourceUnit where
  source : String
  text : String
  deriving DecidableEq, Repr

/-- What reading input gives, in the order in which it comes. -/
inductive Event where
  | found (unit : SourceUnit)
  | note (entry : LogEntry)
  deriving DecidableEq, Repr

namespace Event

/-- The text of an event. -/
def unit? : Event → Option SourceUnit
  | .found unit => some unit
  | .note _ => none

/-- The message of an event. -/
def entry? : Event → Option LogEntry
  | .found _ => none
  | .note entry => some entry

/-- The texts of some events. -/
def units (events : List Event) : List SourceUnit := events.filterMap unit?

/-- The messages of some events. -/
def entries (events : List Event) : List LogEntry := events.filterMap entry?

@[simp] theorem units_append (first second : List Event) :
    units (first ++ second) = units first ++ units second := List.filterMap_append

@[simp] theorem entries_append (first second : List Event) :
    entries (first ++ second) = entries first ++ entries second := List.filterMap_append

@[simp] theorem units_map_found (texts : List SourceUnit) : units (texts.map .found) = texts := by
  induction texts with
  | nil => rfl
  | cons text rest ih => simpa [units, unit?] using ih

@[simp] theorem entries_map_found (texts : List SourceUnit) : entries (texts.map .found) = [] := by
  simp [entries, entry?]

end Event

end LineLint
