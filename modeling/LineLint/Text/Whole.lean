/-
**Whole numbers as people write them.**

Blanks around the number, a sign and single low lines between digits are allowed, and the digits
may be those of any script.  There is a limit to the number of digits.

Main definitions:

* `LineLint.Text.readWhole?` — the number that a text stands for.
-/

import LineLint.Text.Blank
import LineLint.Text.Category
import LineLint.Text.Numeral

set_option relaxedAutoImplicit false
set_option autoImplicit false

namespace LineLint.Text

/-- Reads the digits after those that make `value`.  `afterDigit` says that a low line may come
next. -/
def readDigits? (value : Nat) (afterDigit : Bool) : List Char → Option Nat
  | [] => if afterDigit then some value else none
  | c :: rest =>
    if c = '_' then
      if afterDigit then readDigits? value false rest else none
    else if isDecimal c then
      readDigits? (value * 10 + digitValue c) true rest
    else
      none

/-- The number without a sign that a text stands for. -/
def readUnsigned? (cs : List Char) : Option Nat :=
  if digitLimit < cs.countP isDecimal then none else readDigits? 0 false cs

/-- The blanks that may stand around a number: all but the four information separators. -/
def surroundsNumber (c : Char) : Bool :=
  isBlank c && !(28 ≤ c.toNat && c.toNat ≤ 31)

/-- The whole number that a text stands for. -/
def readWhole? (text : String) : Option Int :=
  match trimChars surroundsNumber text.toList with
  | '-' :: digits => (readUnsigned? digits).map (fun n => -(n : Int))
  | '+' :: digits => (readUnsigned? digits).map (fun n => (n : Int))
  | digits => (readUnsigned? digits).map (fun n => (n : Int))

end LineLint.Text
