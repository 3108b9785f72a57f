/-
**Reading JSON.**

The reader takes the characters from left to right and stops at the first one that cannot go on
with a JSON text, saying where it stands.  It also takes the words `NaN`, `Infinity` and
`-Infinity` for numbers; a number with a fraction or an exponent is a floating-point number, any
other one a whole number.  There may be limits to the digits of a whole number, and to how many
arrays and objects stand around each other.

An escape of half a pair without the other half stands for no character, so it is a fault here.

Main definitions:

* `LineLint.Json.Limits` — how much is taken;
* `LineLint.Json.Fault`, `LineLint.Json.Error` — what is wrong, and where;
* `LineLint.Json.parse` — the value of a text;
* `LineLint.Json.Error.message` — the message, with line and column.
-/

import LineLint.Crash
import LineLint.Json.Value
import LineLint.Text.Numeral

set_option relaxedAutoImplicit false
set_option autoImplicit false

namespace LineLint.Json

open Decimal

/-! ### Limits -/

/-- How much of a text is taken; `none` is no limit. -/
structure Limits where
  /-- The digits of a whole number. -/
  digits : Option Nat := none
  /-- The arrays and objects that stand around each other. -/
  depth : Option Nat := none
  deriving DecidableEq, Repr

/-- The limits inside one more array or object, if that is allowed. -/
def Limits.inside? (limits : Limits) : Option Limits :=
  match limits.depth with
  | none => some limits
  | some 0 => none
  | some (depth + 1) => some { limits with depth := some depth }

/-- The limit of digits that a whole number breaks, if it has too many. -/
def Limits.broken? (limits : Limits) (digits : Nat) : Option Nat :=
  limits.digits.filter (fun limit => decide (limit < digits))

/-! ### Errors -/

/-- What can be wrong with a JSON text. -/
inductive Fault where
  | byteOrderMark
  | expectingValue
  | extraData
  | expectingName
  | expectingColon
  | expectingComma
  | unterminatedString
  | controlCharacter
  | badEscape
  | badUnicodeEscape
  | loneHalf
  | longNumber (limit digits : Nat)
  /-- The reading breaks off, which is not expected of a text. -/
  | crash (cause : Crash)
  deriving DecidableEq, Repr

/-- A fault and the number of characters before it. -/
structure Error where
  fault : Fault
  position : Nat
  deriving DecidableEq, Repr

/-- The words for a fault. -/
def Fault.message : Fault → String
  | .byteOrderMark => "Unexpected UTF-8 BOM (decode using utf-8-sig)"
  | .expectingValue => "Expecting value"
  | .extraData => "Extra data"
  | .expectingName => "Expecting property name enclosed in double quotes"
  | .expectingColon => "Expecting ':' delimiter"
  | .expectingComma => "Expecting ',' delimiter"
  | .unterminatedString => "Unterminated string starting at"
  | .controlCharacter => "Invalid control character at"
  | .badEscape => "Invalid \\escape"
  | .badUnicodeEscape => "Invalid \\uXXXX escape"
  | .loneHalf => "Escape of half a character"
  | .longNumber limit digits => Text.tooManyDigits limit digits
  | .crash cause => cause.message

/-- The message for an error in the given characters.  Lines and columns count from one, characters
from zero. -/
def Error.message (error : Error) (cs : List Char) : String :=
  let before := cs.take error.position
  let line := before.count '\n' + 1
  let column := (before.reverse.takeWhile (· != '\n')).length + 1
  error.fault.message ++ ": line " ++ Text.natural line ++ " column " ++ Text.natural column ++
    " (char " ++ Text.natural error.position ++ ")"

/-! ### Places in a text -/

/-- What is left to read, and how many characters were read before it. -/
structure Cursor where
  position : Nat
  rest : List Char

/-- The cursor after `count` more characters. -/
def Cursor.skip (cursor : Cursor) (count : Nat) : Cursor :=
  ⟨cursor.position + count, cursor.rest.drop count⟩

/-- Blanks between the parts of a JSON text. -/
def isGap (c : Char) : Bool :=
  c == ' ' || c == '\t' || c == '\n' || c == '\r'

/-- The cursor after the blanks at its front. -/
def Cursor.skipGap (cursor : Cursor) : Cursor :=
  cursor.skip (cursor.rest.takeWhile isGap).length

/-- The error of a fault at the cursor. -/
def Cursor.fail {α : Type} (cursor : Cursor) (fault : Fault) : Except Error α :=
  .error ⟨fault, cursor.position⟩

/-! ### Strings -/

/-- The number written with four hexadecimal digits. -/
def hexFour? (a b c d : Char) : Option Nat := do
  let a ← Text.hexValue? a
  let b ← Text.hexValue? b
  let c ← Text.hexValue? c
  let d ← Text.hexValue? d
  return ((a * 16 + b) * 16 + c) * 16 + d

/-- The character that a backslash and a letter stand for. -/
def shortEscape? (c : Char) : Option Char :=
  match c with
  | '"' => some '"'
  | '\\' => some '\\'
  | '/' => some '/'
  | 'b' => some (Char.ofNat 8)
  | 'f' => some (Char.ofNat 12)
  | 'n' => some '\n'
  | 'r' => some '\r'
  | 't' => some '\t'
  | _ => none

/-- Whether a number is the first half of a pair that stands for one character. -/
def isHighHalf (n : Nat) : Bool := 0xd800 ≤ n && n ≤ 0xdbff

/-- Whether a number is the second half of a pair that stands for one character. -/
def isLowHalf (n : Nat) : Bool := 0xdc00 ≤ n && n ≤ 0xdfff

/-- The character with a number; half a pair is none. -/
def charOf? (n : Nat) : Option Char :=
  if isHighHalf n || isLowHalf n then none else some (Char.ofNat n)

/-- The character of the two halves of a pair. -/
def joinHalves (high low : Nat) : Char :=
  Char.ofNat (0x10000 + (high - 0xd800) * 0x400 + (low - 0xdc00))

/-- Reads a string whose opening quote stands at `opening`, from `position` on.  The characters
read so far are in `read`, last first. -/
def stringBody (opening : Nat) (position : Nat) (read : List Char) :
    List Char → Except Error (String × Cursor)
  | [] => .error ⟨.unterminatedString, opening⟩
  | '"' :: rest => .ok (String.ofList read.reverse, ⟨position + 1, rest⟩)
  | ['\\'] => .error ⟨.unterminatedString, opening⟩
  | '\\' :: 'u' :: a :: b :: c :: d :: '\\' :: 'u' :: e :: f :: g :: h :: i :: rest =>
    match hexFour? a b c d with
    | none => .error ⟨.badUnicodeEscape, position + 1⟩
    | some high =>
      if isHighHalf high then
        match hexFour? e f g h with
        | none => .error ⟨.badUnicodeEscape, position + 7⟩
        | some low =>
          if isLowHalf low then
            stringBody opening (position + 12) (joinHalves high low :: read) (i :: rest)
          else
            .error ⟨.loneHalf, position⟩
      else
        match charOf? high with
        | none => .error ⟨.loneHalf, position⟩
        | some c =>
          stringBody opening (position + 6) (c :: read)
            ('\\' :: 'u' :: e :: f :: g :: h :: i :: rest)
  | '\\' :: 'u' :: a :: b :: c :: d :: e :: rest =>
    match hexFour? a b c d with
    | none => .error ⟨.badUnicodeEscape, position + 1⟩
    | some code =>
      match charOf? code with
      | none => .error ⟨.loneHalf, position⟩
      | some c => stringBody opening (position + 6) (c :: read) (e :: rest)
  | '\\' :: 'u' :: _ => .error ⟨.badUnicodeEscape, position + 1⟩
  | '\\' :: c :: rest =>
    match shortEscape? c with
    | none => .error ⟨.badEscape, position⟩
    | some escaped => stringBody opening (position + 2) (escaped :: read) rest
  | c :: rest =>
    if c.toNat < 0x20 then
      .error ⟨.controlCharacter, position⟩
    else
      stringBody opening (position + 1) (c :: read) rest

/-- Reads the string whose opening quote the cursor has just passed. -/
def Cursor.string (cursor : Cursor) : Except Error (String × Cursor) :=
  stringBody (cursor.position - 1) cursor.position [] cursor.rest

/-! ### Numbers -/

/-- The parts of a number: sign, whole digits, digits of the fraction, and the exponent. -/
structure Numeral where
  negative : Bool
  whole : List Char
  fraction : List Char
  exponent : Option Int
  width : Nat

/-- The digits at the front of some characters. -/
def leadingDigits (cs : List Char) : List Char := cs.takeWhile Char.isDigit

/-- The digits of the whole part: a zero alone, or digits that begin with another one. -/
def wholeDigits (cs : List Char) : List Char :=
  match cs with
  | '0' :: _ => ['0']
  | _ => leadingDigits cs

/-- The digits after a point, if the characters begin with a point and a digit. -/
def fractionDigits (cs : List Char) : List Char :=
  match cs with
  | '.' :: rest => leadingDigits rest
  | _ => []

/-- The exponent at the front of some characters and the number of its characters. -/
def exponentPart (cs : List Char) : Option (Int × Nat) :=
  let read (sign : Int) (signWidth : Nat) (rest : List Char) : Option (Int × Nat) :=
    match leadingDigits rest with
    | [] => none
    | digits => some (sign * Text.ofDecimalDigits digits, 1 + signWidth + digits.length)
  match cs with
  | [] => none
  | mark :: rest =>
    if mark == 'e' || mark == 'E' then
      match rest with
      | '-' :: after => read (-1) 1 after
      | '+' :: after => read 1 1 after
      | _ => read 1 0 rest
    else
      none

/-- The number at the front of some characters. -/
def numeral? (cs : List Char) : Option Numeral :=
  let negative := cs.head? == some '-'
  let signWidth := if negative then 1 else 0
  let unsigned := cs.drop signWidth
  match wholeDigits unsigned with
  | [] => none
  | whole =>
    let afterWhole := unsigned.drop whole.length
    let fraction := fractionDigits afterWhole
    let fractionWidth := if fraction.isEmpty then 0 else fraction.length + 1
    let afterFraction := afterWhole.drop fractionWidth
    match exponentPart afterFraction with
    | none => some ⟨negative, whole, fraction, none, signWidth + whole.length + fractionWidth⟩
    | some (exponent, width) =>
      some ⟨negative, whole, fraction, some exponent,
        signWidth + whole.length + fractionWidth + width⟩

/-- Whether a number is whole: it has no fraction and no exponent. -/
def Numeral.isWhole (n : Numeral) : Bool := n.fraction.isEmpty && n.exponent.isNone

/-- The value of a number. -/
def Numeral.value (n : Numeral) : Value :=
  if n.isWhole then
    let size : Int := Text.ofDecimalDigits n.whole
    .int (if n.negative then -size else size)
  else
    .float (Binary64.ofDecimal n.negative (Text.ofDecimalDigits (n.whole ++ n.fraction))
      (n.exponent.getD 0 - n.fraction.length))

/-- The limit that a number breaks, if it is whole and has too many digits. -/
def Numeral.broken? (n : Numeral) (limits : Limits) : Option Nat :=
  if n.isWhole then limits.broken? n.whole.length else none

/-! ### Values -/

/-- A word that stands for a value. -/
def words : List (List Char × Value) :=
  [("null".toList, .null), ("true".toList, .bool true), ("false".toList, .bool false),
   ("NaN".toList, .float .nan), ("Infinity".toList, .float (.infinite false)),
   ("-Infinity".toList, .float (.infinite true))]

/-- Reads a word or a number. -/
def scalar (limits : Limits) (cursor : Cursor) : Except Error (Value × Cursor) :=
  match words.find? (fun word => word.1.isPrefixOf cursor.rest) with
  | some (word, value) => .ok (value, cursor.skip word.length)
  | none =>
    match numeral? cursor.rest with
    | none => cursor.fail .expectingValue
    | some n =>
      match n.broken? limits with
      | some limit => cursor.fail (.longNumber limit n.whole.length)
      | none => .ok (n.value, cursor.skip n.width)

mutual

/-- Reads a value at the cursor.  The second argument bounds the number of nested calls. -/
def value (limits : Limits) (fuel : Nat) (cursor : Cursor) : Except Error (Value × Cursor) :=
  match fuel with
  | 0 => cursor.fail .expectingValue
  | fuel + 1 =>
    match cursor.rest with
    | '"' :: _ => do
      let (text, after) ← (cursor.skip 1).string
      return (.string text, after)
    | '[' :: _ =>
      match limits.inside? with
      | none => cursor.fail (.crash .nestedArrays)
      | some limits =>
        let inner := (cursor.skip 1).skipGap
        match inner.rest with
        | ']' :: _ => .ok (.array [], inner.skip 1)
        | _ => do
          let (items, after) ← elements limits fuel inner
          return (.array items, after)
    | '\x7b' :: _ =>
      match limits.inside? with
      | none => cursor.fail (.crash .nestedObjects)
      | some limits =>
        let inner := (cursor.skip 1).skipGap
        match inner.rest with
        | '\x7d' :: _ => .ok (.object [], inner.skip 1)
        | _ => do
          let (items, after) ← members limits fuel [] inner
          return (.object items, after)
    | _ => scalar limits cursor

/-- Reads the rest of an array, from the front of an element on. -/
def elements (limits : Limits) (fuel : Nat) (cursor : Cursor) :
    Except Error (List Value × Cursor) :=
  match fuel with
  | 0 => cursor.fail .expectingValue
  | fuel + 1 => do
    let (first, after) ← value limits fuel cursor
    let after := after.skipGap
    match after.rest with
    | ']' :: _ => return ([first], after.skip 1)
    | ',' :: _ =>
      let (others, last) ← elements limits fuel (after.skip 1).skipGap
      return (first :: others, last)
    | _ => after.fail .expectingComma

/-- Reads the rest of an object, from the front of a member on, into the members read so far. -/
def members (limits : Limits) (fuel : Nat) (read : List (String × Value)) (cursor : Cursor) :
    Except Error (List (String × Value) × Cursor) :=
  match fuel with
  | 0 => cursor.fail .expectingName
  | fuel + 1 =>
    match cursor.rest with
    | '"' :: _ => do
      let (name, after) ← (cursor.skip 1).string
      let after := after.skipGap
      match after.rest with
      | ':' :: _ =>
        let (item, after) ← value limits fuel (after.skip 1).skipGap
        let read := put name item read
        let after := after.skipGap
        match after.rest with
        | '\x7d' :: _ => return (read, after.skip 1)
        | ',' :: _ => members limits fuel read (after.skip 1).skipGap
        | _ => after.fail .expectingComma
      | _ => after.fail .expectingColon
    | _ => cursor.fail .expectingName

end

/-- The value of a JSON text. -/
def parse (cs : List Char) (limits : Limits := {}) : Except Error Value :=
  if cs.head? == some (Char.ofNat 0xfeff) then
    .error ⟨.byteOrderMark, 0⟩
  else do
    let (result, after) ← value limits (cs.length + 1) (Cursor.skipGap ⟨0, cs⟩)
    let after := after.skipGap
    match after.rest with
    | [] => return result
    | _ => after.fail .extraData

end LineLint.Json
