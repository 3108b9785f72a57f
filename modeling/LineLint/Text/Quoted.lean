/-
**Quoted text.**

Messages show a text between quotes so that every character of it can be told: the quote in use and
the backslash are escaped, the common controls have short names, and every other character that is
not visible is written by its number.  Single quotes are used unless the text holds one and no
double quote.

Main definitions:

* `LineLint.Text.quoteFor` — the quote that surrounds a text;
* `LineLint.Text.escapedChar` — a character as it stands between quotes;
* `LineLint.Text.quoted` — the quoted form of a text.
-/

import LineLint.Text.Category
import LineLint.Text.Numeral

set_option relaxedAutoImplicit false
set_option autoImplicit false

namespace LineLint.Text

/-- A single quote, unless the text holds one and no double quote. -/
def quoteFor (cs : List Char) : Char :=
  if cs.contains '\'' && !cs.contains '"' then '"' else '\''

/-- A character by its number, in the shortest of the three escapes that can hold it. -/
def numberedChar (c : Char) : List Char :=
  if c.toNat < 0x100 then
    '\\' :: 'x' :: hexDigits 2 c.toNat
  else if c.toNat < 0x10000 then
    '\\' :: 'u' :: hexDigits 4 c.toNat
  else
    '\\' :: 'U' :: hexDigits 8 c.toNat

/-- A character as it stands between two of the given quotes. -/
def escapedChar (quote c : Char) : List Char :=
  if c = quote || c = '\\' then ['\\', c]
  else if c = '\n' then ['\\', 'n']
  else if c = '\r' then ['\\', 'r']
  else if c = '\t' then ['\\', 't']
  else if isVisible c then [c]
  else numberedChar c

/-- The quoted form of a text. -/
def quoted (text : String) : String :=
  let cs := text.toList
  let quote := quoteFor cs
  String.ofList (quote :: cs.flatMap (escapedChar quote) ++ [quote])

end LineLint.Text
