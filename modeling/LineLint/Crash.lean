/-
**Failures that end a run.**

Most failures are answered by a message or by an error of their own kind.  Some are met where nobody
expects them; they end the run at once, and what is shown then is not up to the program.

Main definitions:

* `LineLint.Crash` — a failure that ends a run;
* `LineLint.Crash.message` — its message.
-/

import LineLint.Text.Quoted

set_option relaxedAutoImplicit false
set_option autoImplicit false

namespace LineLint

/-- A failure that ends a run. -/
inductive Crash where
  /-- A pattern repeats something more often than patterns can count. -/
  | repetitionTooLarge
  /-- A number in a pattern has too many digits. -/
  | longNumber (digits : Nat)
  /-- A pattern is to know ASCII letters only, and all letters too. -/
  | clashingFlags
  /-- Arrays are nested too deeply to be read. -/
  | nestedArrays
  /-- Objects are nested too deeply to be read. -/
  | nestedObjects
  /-- Links lead round in a circle on the way to a path. -/
  | linkLoop (path : String)
  /-- A path holds the character that ends all names. -/
  | nullInPath
  deriving DecidableEq, Repr

/-- The message of a failure that ends a run. -/
def Crash.message : Crash → String
  | .repetitionTooLarge => "the repetition number is too large"
  | .longNumber digits => Text.tooManyDigits Text.digitLimit digits
  | .clashingFlags => "ASCII and UNICODE flags are incompatible"
  | .nestedArrays =>
    "maximum recursion depth exceeded while decoding a JSON array from a unicode string"
  | .nestedObjects =>
    "maximum recursion depth exceeded while decoding a JSON object from a unicode string"
  | .linkLoop path => "Symlink loop from " ++ Text.quoted path
  | .nullInPath => "embedded null byte"

end LineLint
