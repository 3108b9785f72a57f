/-
**JSON values in messages.**

A message shows a string as it is, and any other value in words: `None`, `True` and `False`,
numbers in decimal, and arrays and objects in brackets with quoted strings inside.

Main definitions:

* `LineLint.Json.Value.quoted` — a value inside another one;
* `LineLint.Json.Value.display` — a value in a message.
-/

import LineLint.Json.Value
import LineLint.Decimal.Shortest
import LineLint.Text.Quoted
import LineLint.Text.Split

set_option relaxedAutoImplicit false
set_option autoImplicit false

namespace LineLint.Json

mutual

/-- A value as it stands inside another one. -/
def Value.quoted : Value → String
  | .null => "None"
  | .bool value => if value then "True" else "False"
  | .int value => Text.integer value
  | .float value => value.text
  | .string value => Text.quoted value
  | .array items => "[" ++ Text.join ", " (quotedItems items) ++ "]"
  | .object members => "\x7b" ++ Text.join ", " (quotedMembers members) ++ "\x7d"

/-- The values of an array, each as it stands inside. -/
def quotedItems : List Value → List String
  | [] => []
  | item :: rest => item.quoted :: quotedItems rest

/-- The members of an object, each as it stands inside. -/
def quotedMembers : List (String × Value) → List String
  | [] => []
  | (name, item) :: rest => (Text.quoted name ++ ": " ++ item.quoted) :: quotedMembers rest

end

/-- A value in a message: strings stand as they are. -/
def Value.display : Value → String
  | .string value => value
  | value => value.quoted

end LineLint.Json
