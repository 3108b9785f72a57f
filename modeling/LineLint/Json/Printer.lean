/-
**Writing JSON.**

There are two layouts.  The indented one puts every element and member on a line of its own, two
more blanks in for every level, and writes characters beyond ASCII as they are.  The compact one is
a single line with a blank after commas and colons, and writes characters beyond ASCII by their
numbers.

Main definitions:

* `LineLint.Json.escaped` — a string between its quotes;
* `LineLint.Json.Value.indented` — the indented layout;
* `LineLint.Json.Value.compact` — the compact layout.
-/

import LineLint.Json.Value
import LineLint.Decimal.Shortest
import LineLint.Text.Numeral
import LineLint.Text.Split

set_option relaxedAutoImplicit false
set_option autoImplicit false

namespace LineLint.Json

open Decimal

/-! ### Strings and numbers -/

/-- A code below U+10000 as an escape. -/
def numberedEscape (code : Nat) : List Char :=
  '\\' :: 'u' :: Text.hexDigits 4 code

/-- A character that is written the same way in both layouts, if it must be escaped. -/
def shortForm? (c : Char) : Option (List Char) :=
  if c = '"' then some ['\\', '"']
  else if c = '\\' then some ['\\', '\\']
  else if c = '\n' then some ['\\', 'n']
  else if c = '\r' then some ['\\', 'r']
  else if c = '\t' then some ['\\', 't']
  else if c.toNat = 8 then some ['\\', 'b']
  else if c.toNat = 12 then some ['\\', 'f']
  else if c.toNat < 0x20 then some (numberedEscape c.toNat)
  else none

/-- A character of a string; with `ascii`, one beyond ASCII is written by its number, or by the
two halves of its number. -/
def escapedChar (ascii : Bool) (c : Char) : List Char :=
  match shortForm? c with
  | some form => form
  | none =>
    if ascii && 0x7f < c.toNat then
      if c.toNat < 0x10000 then
        numberedEscape c.toNat
      else
        let offset := c.toNat - 0x10000
        numberedEscape (0xd800 + offset / 0x400) ++ numberedEscape (0xdc00 + offset % 0x400)
    else
      [c]

/-- A string between its quotes. -/
def escaped (ascii : Bool) (text : String) : List Char :=
  '"' :: text.toList.flatMap (escapedChar ascii) ++ ['"']

/-- A floating-point number; the words for what is not finite are those that reading takes. -/
def floatChars : Binary64 → List Char
  | .nan => "NaN".toList
  | .infinite false => "Infinity".toList
  | .infinite true => "-Infinity".toList
  | value => value.text.toList

/-! ### The two layouts -/

/-- A line feed and the blanks in front of the next line. -/
def newLine (depth : Nat) : List Char :=
  '\n' :: List.replicate (2 * depth) ' '

mutual

/-- The indented layout of a value at the given depth. -/
def indentedChars (depth : Nat) : Value → List Char
  | .null => "null".toList
  | .bool value => if value then "true".toList else "false".toList
  | .int value => Text.integerChars value
  | .float value => floatChars value
  | .string value => escaped false value
  | .array [] => ['[', ']']
  | .array items =>
    '[' :: newLine (depth + 1) ++
      Text.joinChars (',' :: newLine (depth + 1)) (indentedItems (depth + 1) items) ++
      newLine depth ++ [']']
  | .object [] => ['\x7b', '\x7d']
  | .object members =>
    '\x7b' :: newLine (depth + 1) ++
      Text.joinChars (',' :: newLine (depth + 1)) (indentedMembers (depth + 1) members) ++
      newLine depth ++ ['\x7d']

/-- The indented layouts of some values. -/
def indentedItems (depth : Nat) : List Value → List (List Char)
  | [] => []
  | item :: rest => indentedChars depth item :: indentedItems depth rest

/-- The indented layouts of some members. -/
def indentedMembers (depth : Nat) : List (String × Value) → List (List Char)
  | [] => []
  | (name, item) :: rest =>
    (escaped false name ++ [':', ' '] ++ indentedChars depth item) :: indentedMembers depth rest

end

mutual

/-- The compact layout of a value. -/
def compactChars : Value → List Char
  | .null => "null".toList
  | .bool value => if value then "true".toList else "false".toList
  | .int value => Text.integerChars value
  | .float value => floatChars value
  | .string value => escaped true value
  | .array items => '[' :: Text.joinChars [',', ' '] (compactItems items) ++ [']']
  | .object members =>
    '\x7b' :: Text.joinChars [',', ' '] (compactMembers members) ++ ['\x7d']

/-- The compact layouts of some values. -/
def compactItems : List Value → List (List Char)
  | [] => []
  | item :: rest => compactChars item :: compactItems rest

/-- The compact layouts of some members. -/
def compactMembers : List (String × Value) → List (List Char)
  | [] => []
  | (name, item) :: rest =>
    (escaped true name ++ [':', ' '] ++ compactChars item) :: compactMembers rest

end

/-- The indented layout of a value. -/
def Value.indented (value : Value) : String := String.ofList (indentedChars 0 value)

/-- The compact layout of a value. -/
def Value.compact (value : Value) : String := String.ofList (compactChars value)

end LineLint.Json
