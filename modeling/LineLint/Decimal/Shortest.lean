/-
**The shortest decimal text of a floating-point number.**

The digits are the fewest that read back as the same number, and among equally few the ones nearest
to it.  For one, two, … seventeen digits the two neighbours of the number on that decimal grid are
tried; the first grid with a neighbour that reads back gives the digits.

Main definitions:

* `LineLint.Decimal.shortestDigits` — the digits and the place of the decimal point;
* `LineLint.Decimal.Binary64.text` — the text: positional for points from three zeros after the
  point up to sixteen digits before it, with an exponent of at least two digits elsewhere.
-/

import LineLint.Decimal.Binary64
import LineLint.Text.Numeral

set_option relaxedAutoImplicit false
set_option autoImplicit false

namespace LineLint.Decimal

/-- A decimal: `digits` as a whole number, times ten to the power `power`. -/
structure Scaled where
  digits : Nat
  power : Int
  deriving DecidableEq, Repr

/-- The numerator and denominator of the magnitude of a finite number. -/
def ratio (mantissa : Nat) (exponent : Int) : Nat × Nat :=
  match exponent with
  | .ofNat e => (mantissa * Nat.pow 2 e, 1)
  | .negSucc e => (mantissa, Nat.pow 2 (e + 1))

/-- The numerator and denominator of `num / den` divided by ten to the given power. -/
def overTen (num den : Nat) (power : Int) : Nat × Nat :=
  match power with
  | .ofNat p => (num, den * Nat.pow 10 p)
  | .negSucc p => (num * Nat.pow 10 (p + 1), den)

/-- The place of the decimal point: the least `p` with the quotient `num / den` below `10 ^ p`. -/
def pointOf (num den : Nat) : Int :=
  let guess : Int := (Binary64.digitCount num : Int) - Binary64.digitCount den
  let parts := overTen num den guess
  if parts.1 < parts.2 then guess else guess + 1

/-- The neighbour of the number on the grid of `count` digits that reads back as it, the nearer one
if both do, the even one if they are equally near. -/
def onGrid? (mantissa : Nat) (exponent : Int) (count : Nat) : Option Scaled :=
  let (num, den) := ratio mantissa exponent
  let power := pointOf num den - count
  let parts := overTen num den power
  let below := parts.1 / parts.2
  let rest := parts.1 % parts.2
  let readsBack (digits : Nat) : Bool :=
    Binary64.ofDecimal false digits power == .finite false mantissa exponent
  let preferAbove := 2 * rest > parts.2 || (2 * rest == parts.2 && below % 2 == 1)
  let candidates := if preferAbove then [below + 1, below] else [below, below + 1]
  (candidates.find? readsBack).map (fun digits => ⟨digits, power⟩)

/-- The decimal without the zeros at its end, of which there are at most `fuel`. -/
def Scaled.trim : Nat → Scaled → Scaled
  | 0, s => s
  | fuel + 1, s =>
    if s.digits % 10 = 0 ∧ s.digits ≠ 0 then trim fuel ⟨s.digits / 10, s.power + 1⟩ else s

/-- The fewest digits that read back as the number. -/
def shortestDigits (mantissa : Nat) (exponent : Int) : Scaled :=
  let grids := (List.range 17).map (· + 1)
  ((grids.findSome? (onGrid? mantissa exponent)).getD ⟨mantissa, 0⟩).trim 20

/-- The text of a positive decimal. -/
def Scaled.text (s : Scaled) : String :=
  let digits := Text.decimalDigits s.digits
  let point : Int := s.power + digits.length
  let zeros (n : Int) : List Char := List.replicate n.toNat '0'
  if -4 < point ∧ point ≤ 16 then
    if point ≤ 0 then
      String.ofList (['0', '.'] ++ zeros (-point) ++ digits)
    else if (digits.length : Int) ≤ point then
      String.ofList (digits ++ zeros s.power ++ ['.', '0'])
    else
      String.ofList (digits.take point.toNat ++ ['.'] ++ digits.drop point.toNat)
  else
    let shown := point - 1
    let size := Text.decimalDigits shown.natAbs
    let padded := if size.length < 2 then '0' :: size else size
    let fraction := if digits.length ≤ 1 then [] else '.' :: digits.drop 1
    String.ofList
      (digits.take 1 ++ fraction ++ ['e', if shown < 0 then '-' else '+'] ++ padded)

/-- The shortest text that reads back as the number. -/
def Binary64.text : Binary64 → String
  | .nan => "nan"
  | .infinite negative => if negative then "-inf" else "inf"
  | .finite negative mantissa exponent =>
    let sign := if negative then "-" else ""
    if mantissa = 0 then sign ++ "0.0" else sign ++ (shortestDigits mantissa exponent).text

end LineLint.Decimal
