/-
**Blank characters.**

White space of every kind: the ASCII blanks and separators, the next-line and no-break characters,
and the spaces and line separators of Unicode.

Main definitions:

* `LineLint.Text.isBlank` — the blank characters;
* `LineLint.Text.strip` — a text without the blanks at its two ends.
-/

set_option relaxedAutoImplicit false
set_option autoImplicit false

namespace LineLint.Text

/-- White space of every kind. -/
def isBlank (c : Char) : Bool :=
  let code := c.toNat
  (9 ≤ code && code ≤ 13) || (28 ≤ code && code ≤ 32) || code == 0x85 || code == 0xa0 ||
    code == 0x1680 || (0x2000 ≤ code && code ≤ 0x200a) || code == 0x2028 || code == 0x2029 ||
    code == 0x202f || code == 0x205f || code == 0x3000

/-- The characters without those of a class at the two ends. -/
def trimChars (belongs : Char → Bool) (cs : List Char) : List Char :=
  ((cs.dropWhile belongs).reverse.dropWhile belongs).reverse

/-- The characters without the blanks at the two ends. -/
def stripChars (cs : List Char) : List Char :=
  trimChars isBlank cs

/-- The text without the blanks at its two ends. -/
def strip (text : String) : String :=
  String.ofList (stripChars text.toList)

end LineLint.Text
