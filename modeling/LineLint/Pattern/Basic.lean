/-
**Patterns.**

A pattern describes spans of a line: characters of a class one after the other, alternatives of
which the first that leads to a match counts, repetitions, groups that remember what they spanned,
and conditions that look at a place without moving.

Main definitions:

* `LineLint.Pattern` — the patterns;
* `LineLint.Pattern.Anchor.holds` — the conditions on a place of a line;
* `LineLint.Pattern.ofList`, `LineLint.Pattern.oneOf` — patterns in a row, and alternatives.
-/

import LineLint.Pattern.CharClass

set_option relaxedAutoImplicit false
set_option autoImplicit false

namespace LineLint

namespace Pattern

/-- A condition on a place between two characters. -/
inductive Anchor where
  /-- The start of the text. -/
  | textStart
  /-- The end of the text. -/
  | textEnd
  /-- The start of the text or, with `multiline`, of a line. -/
  | lineStart (multiline : Bool)
  /-- The end of the text, before a line feed that ends it or, with `multiline`, of a line. -/
  | lineEnd (multiline : Bool)
  /-- A place with a word character on exactly one side. -/
  | wordEdge (ascii : Bool)
  /-- A place of a text that is not empty with word characters on both sides or on none. -/
  | noWordEdge (ascii : Bool)
  deriving DecidableEq, Repr

/-- Whether there is a word character on exactly one side of the place. -/
def isWordEdge (ascii : Bool) (text : Array Char) (place : Nat) : Bool :=
  let isWordAt (i : Nat) : Bool := (text[i]?).any (Kind.word.holds ascii)
  let before := decide (0 < place) && isWordAt (place - 1)
  before != isWordAt place

/-- Whether a condition holds at a place of a line. -/
def Anchor.holds (anchor : Anchor) (text : Array Char) (place : Nat) : Bool :=
  match anchor with
  | .textStart => place == 0
  | .textEnd => place == text.size
  | .lineStart multiline =>
    place == 0 || (multiline && text[place - 1]? == some '\n')
  | .lineEnd multiline =>
    place == text.size || (text[place]? == some '\n' && (multiline || place + 1 == text.size))
  | .wordEdge ascii => isWordEdge ascii text place
  | .noWordEdge ascii => !text.isEmpty && !isWordEdge ascii text place

/-- Which number of repetitions is tried first, and whether others are tried after it. -/
inductive Mode where
  /-- As many as possible first. -/
  | greedy
  /-- As few as possible first. -/
  | lazy
  /-- As many as possible, and no other number. -/
  | possessive
  deriving DecidableEq, Repr

end Pattern

/-- A pattern. -/
inductive Pattern where
  /-- The empty span. -/
  | empty
  /-- One character of a class. -/
  | chars (cls : Pattern.CharClass)
  /-- A condition on the place. -/
  | anchor (condition : Pattern.Anchor)
  /-- One pattern after the other. -/
  | seq (first second : Pattern)
  /-- The first pattern or, if that leads to no match, the second. -/
  | alt (first second : Pattern)
  /-- A group that remembers its span under a number. -/
  | group (index : Nat) (body : Pattern)
  /-- The characters that a group has spanned. -/
  | backref (index : Nat) (ignoreCase ascii : Bool)
  /-- At least `least` and at most `most` repetitions. -/
  | repeated (body : Pattern) (least : Nat) (most : Option Nat) (mode : Pattern.Mode)
  /-- A condition that the body matches at the place, or does not. -/
  | lookAhead (positive : Bool) (body : Pattern)
  /-- A condition that the body, which always spans `width` characters, matches up to the place,
  or does not. -/
  | lookBehind (positive : Bool) (width : Nat) (body : Pattern)
  /-- The first match of the body and no other. -/
  | atomic (body : Pattern)
  /-- The first pattern if a group has a span, else the second. -/
  | ifGroup (index : Nat) (present absent : Pattern)
  deriving DecidableEq, Repr

namespace Pattern

/-- Patterns in a row. -/
def ofList : List Pattern → Pattern
  | [] => .empty
  | [pattern] => pattern
  | pattern :: rest => .seq pattern (ofList rest)

/-- Alternatives, in the order in which they are tried. -/
def oneOf : List Pattern → Pattern
  | [] => .empty
  | [pattern] => pattern
  | pattern :: rest => .alt pattern (oneOf rest)

/-- The characters of a text in a row, read without flags. -/
def ofText (text : String) : Pattern :=
  ofList (text.toList.map (fun c => .chars (CharClass.literal {} c.toNat)))

end Pattern

end LineLint
