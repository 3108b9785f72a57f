/-
**Escapes of a pattern.**

A backslash gives a character by its name or number, a category, an anchor or a reference to a
group; before any character that is no letter or digit it stands for that character.  Which names
there are is told by a table, `names`.

Main definitions:

* `LineLint.Pattern.Escape` — what an escape outside a class stands for;
* `LineLint.Pattern.readEscape` — an escape outside a class;
* `LineLint.Pattern.readClassEscape` — an escape inside a class.
-/

import LineLint.Pattern.Basic
import LineLint.Pattern.Token

set_option relaxedAutoImplicit false
set_option autoImplicit false

namespace LineLint.Pattern

/-- What an escape outside a class stands for. -/
inductive Escape where
  | code (code : Nat)
  | kind (kind : Kind) (negated : Bool)
  | anchor (anchor : Anchor)
  /-- A reference to a group, with the place of the backslash. -/
  | reference (index : Nat) (start : Nat)
  deriving Repr

/-- Digits of base eight. -/
def isOctal (c : Char) : Bool := '0' ≤ c && c ≤ '7'

/-- Digits of base sixteen. -/
def isHex (c : Char) : Bool := (Text.hexValue? c).isSome

/-- The number that digits of a base stand for. -/
def numberOf (base : Nat) (digits : List Char) : Nat :=
  digits.foldl (fun value c => value * base + (Text.hexValue? c).getD 0) 0

/-- The controls with a letter of their own. -/
def controlCode? (c : Char) : Option Nat :=
  match c with
  | 'a' => some 7
  | 'f' => some 12
  | 'n' => some 10
  | 'r' => some 13
  | 't' => some 9
  | 'v' => some 11
  | '\\' => some 92
  | _ => none

/-- The categories with a letter of their own. -/
def kindOf? (c : Char) : Option (Kind × Bool) :=
  match c with
  | 'd' => some (.digit, false)
  | 'D' => some (.digit, true)
  | 's' => some (.space, false)
  | 'S' => some (.space, true)
  | 'w' => some (.word, false)
  | 'W' => some (.word, true)
  | _ => none

/-- The anchors with a letter of their own. -/
def anchorOf? (flags : Flags) (c : Char) : Option Anchor :=
  match c with
  | 'A' => some .textStart
  | 'Z' => some .textEnd
  | 'b' => some (.wordEdge flags.ascii)
  | 'B' => some (.noWordEdge flags.ascii)
  | _ => none

/-- The text of a backslash and the characters after it. -/
def shownEscape (cs : List Char) : String := String.ofList ('\\' :: cs)

/-- The number of hexadecimal digits after a letter that announces them. -/
def hexCount? (c : Char) : Option Nat :=
  match c with
  | 'x' => some 2
  | 'u' => some 4
  | 'U' => some 8
  | _ => none

/-- Reads a code point given by exactly `count` hexadecimal digits after the letter `c`; `start` is
the place of the backslash. -/
def readHex (c : Char) (count start : Nat) (input : Input) : Except Error (Nat × Input) := do
  let (digits, after) ← input.takeChars isHex count
  if digits.length ≠ count then
    Input.failAt (.incompleteEscape (shownEscape (c :: digits))) start
  else
    let code := numberOf 16 digits
    if code > 0x10ffff then
      Input.failAt (.badEscape (shownEscape (c :: digits))) start
    else
      return (code, after)

/-- Reads the name of a character in braces. -/
def readNamed (names : String → Option Nat) (start : Nat) (input : Input) :
    Except Error (Nat × Input) := do
  match ← input.accept? '\x7b' with
  | none => input.fail .missingBrace 0
  | some inner =>
    let (name, after) ← inner.nameUntil '\x7d' .missingCharacterName (inner.rest.length + 1) []
    match names name with
    | some code => return (code, after)
    | none => Input.failAt (.unknownCharacterName name) start

/-- A character after a backslash that stands for itself, unless it is an ASCII letter. -/
def readSelf (c : Char) (start : Nat) (input : Input) : Except Error (Nat × Input) :=
  if c.isAlpha then Input.failAt (.badEscape (shownEscape [c])) start
  else .ok (c.toNat, input)

/-- A code point given by octal digits, if it is small enough. -/
def octalCode (digits : List Char) (start : Nat) (input : Input) :
    Except Error (Nat × Input) :=
  let code := numberOf 8 digits
  if code > 255 then Input.failAt (.octalTooLarge (shownEscape digits)) start
  else .ok (code, input)

/-- Reads an escape that begins with a digit other than zero: three octal digits are a code point,
anything else refers to a group. -/
def readDigitEscape (c : Char) (start : Nat) (input : Input) : Except Error (Escape × Input) := do
  let (second, after) ← input.takeChars Char.isDigit 1
  let (third, last) ←
    if isOctal c && second.any isOctal then after.takeChars isOctal 1 else pure ([], after)
  if third.isEmpty then
    return (.reference (numberOf 10 (c :: second)) start, after)
  else
    let (code, last) ← octalCode (c :: second ++ third) start last
    return (.code code, last)

/-- Reads the escape whose backslash stands at `start` and whose first character `c` has been
read. -/
def readEscape (names : String → Option Nat) (flags : Flags) (c : Char) (start : Nat)
    (input : Input) : Except Error (Escape × Input) :=
  let code (result : Except Error (Nat × Input)) : Except Error (Escape × Input) := do
    let (code, after) ← result
    return (.code code, after)
  match anchorOf? flags c, kindOf? c, controlCode? c, hexCount? c with
  | some condition, _, _, _ => .ok (.anchor condition, input)
  | none, some (kind, negated), _, _ => .ok (.kind kind negated, input)
  | none, none, some control, _ => .ok (.code control, input)
  | none, none, none, some count => code (readHex c count start input)
  | none, none, none, none =>
    if c = 'N' then code (readNamed names start input)
    else if c = '0' then do
      let (digits, after) ← input.takeChars isOctal 2
      return (.code (numberOf 8 digits), after)
    else if c.isDigit then readDigitEscape c start input
    else code (readSelf c start input)

/-- Reads the escape inside a class whose backslash stands at `start` and whose first character `c`
has been read. -/
def readClassEscape (names : String → Option Nat) (flags : Flags) (c : Char) (start : Nat)
    (input : Input) : Except Error (CharItem × Input) :=
  let single (result : Except Error (Nat × Input)) : Except Error (CharItem × Input) := do
    let (code, after) ← result
    return (.single code, after)
  match kindOf? c, controlCode? c, hexCount? c with
  | some (kind, negated), _, _ => .ok (.ofKind kind flags.ascii negated, input)
  | none, some control, _ => .ok (.single control, input)
  | none, none, some count => single (readHex c count start input)
  | none, none, none =>
    if c = 'b' then .ok (.single 8, input)
    else if c = 'N' then single (readNamed names start input)
    else if isOctal c then do
      let (digits, after) ← input.takeChars isOctal 2
      single (octalCode (c :: digits) start after)
    else if c.isDigit then Input.failAt (.badEscape (shownEscape [c])) start
    else single (readSelf c start input)

end LineLint.Pattern
