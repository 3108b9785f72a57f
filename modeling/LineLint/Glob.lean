/-
**Glob patterns.**

A glob pattern is read from the left into tokens: a star for any piece of text, a question mark for
any character, a bracket for one character of a class, and any other character for itself.  A
bracket without an end stands for itself too.

Inside brackets an exclamation mark in front negates, and a closing bracket in the first place is
an ordinary character.  Ranges pair up from the left; a range whose bounds are reversed is dropped
together with them, before the first character is looked at.

Main definitions:

* `LineLint.Glob.Token`, `LineLint.Glob.tokens` — the tokens of a pattern;
* `LineLint.Glob.chunks`, `LineLint.Glob.dropReversed` — the ranges of a bracket;
* `LineLint.Glob.runs` — the runs of tokens between the stars;
* `LineLint.Glob.matchTokens` — whether tokens match a whole text, with an early choice for every
  star: what follows it is taken at the first place at which it stands;
* `LineLint.Glob.excludes` — whether a path is excluded by some pattern.
-/

import LineLint.Path

set_option relaxedAutoImplicit false
set_option autoImplicit false

namespace LineLint.Glob

/-! ### Brackets -/

/-- Characters from `least` to `greatest`. -/
structure Range where
  least : Char
  greatest : Char
  deriving DecidableEq, Repr

/-- One character in, or not in, some ranges. -/
structure Bracket where
  negated : Bool
  ranges : List Range
  deriving DecidableEq, Repr

/-- Whether a bracket has a character. -/
def Bracket.holds (bracket : Bracket) (c : Char) : Bool :=
  bracket.ranges.any (fun r => decide (r.least ≤ c) && decide (c ≤ r.greatest)) != bracket.negated

/-- Cuts the inside of a bracket at the hyphens that make ranges.  `head` is the chunk so far, and
`guard` counts the characters that have to pass before a hyphen can make a range. -/
def chunksFrom : Nat → List Char → List Char → List (List Char)
  | _, head, [] => [head]
  | guard, head, c :: rest =>
    if c = '-' && guard = 0 then
      head :: chunksFrom 2 [] rest
    else
      chunksFrom (guard - 1) (head ++ [c]) rest

/-- The chunks of the inside of a bracket: a hyphen between two of them makes a range of the last
character before it and the first one after it.  A hyphen at the end belongs to the chunk before
it. -/
def chunks (inside : List Char) : List (List Char) :=
  let guard := if inside.head? = some '!' then 2 else 1
  let pieces := chunksFrom guard [] inside
  match pieces.reverse with
  | [] :: last :: before => ((last ++ ['-']) :: before).reverse
  | _ => pieces

/-- Joins chunks whose range is reversed, without its two bounds. -/
def dropReversed : List (List Char) → List (List Char)
  | [] => []
  | chunk :: rest =>
    match dropReversed rest with
    | [] => [chunk]
    | next :: others =>
      match chunk.getLast?, next.head? with
      | some least, some greatest =>
        if greatest < least then (chunk.dropLast ++ next.tail) :: others
        else chunk :: next :: others
      | _, _ => chunk :: next :: others

/-- A character of a bracket, or a hyphen that makes a range. -/
inductive Mark where
  | char (c : Char)
  | hyphen
  deriving DecidableEq, Repr

/-- The chunks in a row, with the hyphens between them. -/
def marks : List (List Char) → List Mark
  | [] => []
  | [chunk] => chunk.map .char
  | chunk :: rest => chunk.map .char ++ .hyphen :: marks rest

/-- A mark as an ordinary character. -/
def Mark.toChar : Mark → Char
  | .char c => c
  | .hyphen => '-'

/-- The ranges of marks: a hyphen between two marks joins them. -/
def rangesOf : List Mark → List Range
  | [] => []
  | first :: .hyphen :: second :: rest => ⟨first.toChar, second.toChar⟩ :: rangesOf rest
  | mark :: rest => ⟨mark.toChar, mark.toChar⟩ :: rangesOf rest

/-- The bracket with the given inside.  One whose ranges are all reversed has no character, its
negation every one. -/
def bracketOf (inside : List Char) : Bracket :=
  let inner := marks (dropReversed (chunks inside))
  match inner with
  | .char '!' :: rest => ⟨true, rangesOf rest⟩
  | _ => ⟨false, rangesOf inner⟩

/-! ### Tokens -/

/-- A token of a glob pattern. -/
inductive Token where
  /-- Any piece of text. -/
  | star
  /-- Any character. -/
  | one
  | oneOf (bracket : Bracket)
  | literal (c : Char)
  deriving DecidableEq, Repr

/-- The inside of a bracket whose opening has been read and the number of characters up to its
end, if it has an end.  A closing bracket in the first place, or after the negation, is an ordinary
character. -/
def inside? (cs : List Char) : Option (List Char) :=
  let lead :=
    match cs with
    | '!' :: ']' :: _ => 2
    | '!' :: _ => 1
    | ']' :: _ => 1
    | _ => 0
  let body := (cs.drop lead).takeWhile (· != ']')
  if lead + body.length < cs.length then some (cs.take lead ++ body) else none

/-- The tokens of a glob pattern. -/
def tokens : List Char → List Token
  | [] => []
  | c :: rest =>
    if c = '*' then
      .star :: tokens rest
    else if c = '?' then
      .one :: tokens rest
    else if c = '[' then
      match inside? rest with
      | none => .literal '[' :: tokens rest
      | some inside => .oneOf (bracketOf inside) :: tokens (rest.drop (inside.length + 1))
    else
      .literal c :: tokens rest
termination_by cs => cs.length
decreasing_by
  all_goals simp only [List.length_cons, List.length_drop]
  all_goals omega

/-! ### Matching -/

/-- Whether a token that stands for one character has it. -/
def Token.holds (token : Token) (c : Char) : Bool :=
  match token with
  | .star => false
  | .one => true
  | .oneOf bracket => bracket.holds c
  | .literal other => c == other

/-- The runs of tokens between the stars, empty ones included. -/
def runs : List Token → List (List Token)
  | [] => [[]]
  | .star :: rest => [] :: runs rest
  | token :: rest =>
    match runs rest with
    | [] => [[token]]
    | run :: others => (token :: run) :: others

/-- What a run of tokens leaves of a text that begins with it. -/
def after? : List Token → List Char → Option (List Char)
  | [], text => some text
  | token :: rest, c :: text => if token.holds c then after? rest text else none
  | _ :: _, [] => none

/-- What a run of tokens leaves behind the first place in a text at which it stands. -/
def search? (run : List Token) : List Char → Option (List Char)
  | [] => after? run []
  | c :: text =>
    match after? run (c :: text) with
    | some left => some left
    | none => search? run text

/-- Whether a run of tokens stands at the end of a text. -/
def endsWith (run : List Token) (text : List Char) : Bool :=
  decide (run.length ≤ text.length) &&
    (after? run (text.drop (text.length - run.length))).isSome

/-- Whether runs of tokens match a text if there is a star before each of them.  Every run but the
last one is taken at the first place at which it stands, and no other place is tried for it. -/
def matchBehindStars : List (List Token) → List Char → Bool
  | [], _ => true
  | [last], text => endsWith last text
  | run :: others, text =>
    match search? run text with
    | none => false
    | some left => matchBehindStars others left

/-- Whether the tokens match a whole text. -/
def matchTokens (tokens : List Token) (text : List Char) : Bool :=
  match runs tokens with
  | [] => text.isEmpty
  | [only] => after? only text == some []
  | first :: others =>
    match after? first text with
    | none => false
    | some left => matchBehindStars others left

/-- Whether a glob pattern matches a whole text. -/
def matchText (pattern text : String) : Bool :=
  matchTokens (tokens pattern.toList) text.toList

/-- Whether some pattern matches a path or its last component. -/
def excludes (patterns : List String) (path : Path) : Bool :=
  patterns.any (fun pattern => matchText pattern path.text || matchText pattern path.name)

end LineLint.Glob
