/-
**The tokens of a pattern text.**

A backslash belongs to the character after it; every other character stands alone.  A backslash at
the very end is a fault, which is found as soon as it is the next token.

Main definitions:

* `LineLint.Pattern.Token`, `LineLint.Pattern.tokens` — the tokens of a text;
* `LineLint.Pattern.Input` — the tokens that are left, and the place of the first of them;
* `LineLint.Pattern.Input.advance`, `LineLint.Pattern.Input.accept?` — steps over one token;
* `LineLint.Pattern.Input.nameUntil` — reads up to a terminator.
-/

import LineLint.Pattern.Fault

set_option relaxedAutoImplicit false
set_option autoImplicit false

namespace LineLint.Pattern

/-- A token of a pattern text. -/
inductive Token where
  /-- A character that stands alone. -/
  | plain (c : Char)
  /-- A character after a backslash. -/
  | escaped (c : Char)
  /-- A backslash at the end of the text. -/
  | dangling
  deriving DecidableEq, Repr

namespace Token

/-- The characters of a token. -/
def chars : Token → List Char
  | .plain c => [c]
  | .escaped c => ['\\', c]
  | .dangling => ['\\']

/-- The text of a token. -/
def text (token : Token) : String := String.ofList token.chars

/-- The number of characters of a token. -/
def width (token : Token) : Nat := token.chars.length

end Token

/-- The tokens of a text. -/
def tokens : List Char → List Token
  | [] => []
  | ['\\'] => [.dangling]
  | '\\' :: c :: rest => .escaped c :: tokens rest
  | c :: rest => .plain c :: tokens rest

/-- The tokens that are left to read, and the number of characters before them. -/
structure Input where
  rest : List Token
  position : Nat
  deriving Repr

namespace Input

/-- An error at a place. -/
def failAt {α : Type} (fault : Fault) (position : Nat) : Except Error α :=
  .error ⟨fault, some position⟩

/-- An error at the next token, or `back` characters before it. -/
def fail {α : Type} (input : Input) (fault : Fault) (back : Nat) : Except Error α :=
  failAt fault (input.position - back)

/-- The input itself, unless a backslash at the end of the text is its next token. -/
def checked (input : Input) : Except Error Input :=
  match input.rest with
  | .dangling :: _ => input.fail .danglingBackslash 0
  | _ => .ok input

/-- The input of a pattern text. -/
def ofText (source : List Char) : Except Error Input :=
  checked ⟨tokens source, 0⟩

/-- The next token. -/
def next? (input : Input) : Option Token := input.rest.head?

/-- The input after its next token. -/
def advance (input : Input) : Except Error Input :=
  match input.rest with
  | [] => .ok input
  | token :: rest => checked ⟨rest, input.position + token.width⟩

/-- The next token, if there is one, and the input after it. -/
def take (input : Input) : Except Error (Option Token × Input) := do
  let after ← input.advance
  return (input.next?, after)

/-- The input after the character `c`, if that is next. -/
def accept? (input : Input) (c : Char) : Except Error (Option Input) :=
  if input.next? = some (.plain c) then do
    let after ← input.advance
    return some after
  else
    return none

/-- Reads at most `limit` characters of a class. -/
def takeChars (belongs : Char → Bool) : Nat → Input → Except Error (List Char × Input)
  | 0, input => .ok ([], input)
  | limit + 1, input =>
    match input.next? with
    | some (.plain c) =>
      if belongs c then do
        let after ← input.advance
        let (cs, last) ← takeChars belongs limit after
        return (c :: cs, last)
      else
        .ok ([], input)
    | _ => .ok ([], input)

/-- The error for a text that ends inside a name, of which some characters have been read. -/
def nameEnded (terminator : Char) (missing : Fault) (read : List Char) (input : Input) :
    Except Error (String × Input) :=
  if read.isEmpty then input.fail missing 0
  else input.fail (.unterminatedName terminator) read.length

/-- Reads a name up to a terminator, which is read too.  The characters read so far are in `read`,
and `fuel` bounds the number of tokens. -/
def nameUntil (terminator : Char) (missing : Fault) :
    Nat → List Char → Input → Except Error (String × Input)
  | 0, read, input => nameEnded terminator missing read input
  | fuel + 1, read, input => do
    let (token, after) ← input.take
    match token with
    | none => nameEnded terminator missing read after
    | some token =>
      if token = .plain terminator then
        if read.isEmpty then after.fail missing 1 else return (String.ofList read, after)
      else
        nameUntil terminator missing fuel (read ++ token.chars) after

/-- Reads the name of a group up to a terminator. -/
def groupName (input : Input) (terminator : Char) : Except Error (String × Input) :=
  nameUntil terminator .missingGroupName (input.rest.length + 1) [] input

end Input

end LineLint.Pattern
