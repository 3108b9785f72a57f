/-
**Colours in a report.**

A styled text stands between two control sequences.  Where a report goes to no terminal, every
control sequence is removed from it, also from names and messages that happen to hold one.

Main definitions:

* `LineLint.Report.Style`, `LineLint.Report.styled` — styles, and a text in one;
* `LineLint.Report.sequenceLength?` — the control sequence at the front of some characters;
* `LineLint.Report.plain` — a text without its control sequences.
-/

set_option relaxedAutoImplicit false
set_option autoImplicit false

namespace LineLint.Report

/-- A style of a text. -/
inductive Style where
  | bold
  | red
  | green
  | yellow
  | blue
  deriving DecidableEq, Repr

/-- The number of a style. -/
def Style.code : Style → String
  | .bold => "1"
  | .red => "31"
  | .green => "32"
  | .yellow => "33"
  | .blue => "34"

/-- The character that begins a control sequence. -/
def escapeChar : Char := Char.ofNat 27

/-- The control sequence with a number. -/
def sequence (code : String) : String := String.singleton escapeChar ++ "[" ++ code ++ "m"

/-- A text in a style. -/
def styled (style : Style) (text : String) : String :=
  sequence style.code ++ text ++ sequence "0"

/-- Characters that can stand inside a control sequence. -/
def isParameter (c : Char) : Bool := c == ';' || c == '?' || c.isDigit

/-- The length of the control sequence at the front of some characters: an escape, a bracket,
parameters and a letter. -/
def sequenceLength? (cs : List Char) : Option Nat :=
  match cs with
  | first :: '[' :: rest =>
    if first = escapeChar then
      let parameters := (rest.takeWhile isParameter).length
      match rest.drop parameters with
      | last :: _ => if last.isAlpha then some (parameters + 3) else none
      | [] => none
    else
      none
  | _ => none

/-- The characters without control sequences; the first `skip` of them are part of one. -/
def plainFrom : Nat → List Char → List Char
  | _, [] => []
  | 0, c :: rest =>
    match sequenceLength? (c :: rest) with
    | some length => plainFrom (length - 1) rest
    | none => c :: plainFrom 0 rest
  | skip + 1, _ :: rest => plainFrom skip rest

/-- The text without its control sequences. -/
def plain (text : String) : String := String.ofList (plainFrom 0 text.toList)

end LineLint.Report
