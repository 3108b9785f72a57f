/-
**Floating-point numbers of 64 bits, in exact arithmetic.**

A finite number is a whole mantissa times a power of two.  Reading a decimal rounds to the nearest
such number, a tie going to the even mantissa; everything is computed with whole numbers, so no
step of it rounds by itself.

Main definitions:

* `LineLint.Decimal.Binary64` — the numbers;
* `LineLint.Decimal.Binary64.ofRatio` — the number nearest to a quotient;
* `LineLint.Decimal.Binary64.ofDecimal` — the number nearest to digits times a power of ten.
-/

set_option relaxedAutoImplicit false
set_option autoImplicit false

namespace LineLint.Decimal

/-- A floating-point number of 64 bits. -/
inductive Binary64 where
  /-- No number. -/
  | nan
  /-- An infinity with its sign. -/
  | infinite (negative : Bool)
  /-- The mantissa times two to the exponent, with a sign; zero has a sign too. -/
  | finite (negative : Bool) (mantissa : Nat) (exponent : Int)
  deriving DecidableEq, Repr

namespace Binary64

/-- The quotient `num / den`, rounded to the nearest whole number, a tie going to the even one. -/
def roundQuotient (num den : Nat) : Nat :=
  let quotient := num / den
  let rest := num % den
  if 2 * rest > den || (2 * rest == den && quotient % 2 == 1) then quotient + 1 else quotient

/-- The numerator and denominator of `num / den` divided by two to the given exponent. -/
def scaled (num den : Nat) (exponent : Int) : Nat × Nat :=
  match exponent with
  | .ofNat e => (num, den * Nat.pow 2 e)
  | .negSucc e => (num * Nat.pow 2 (e + 1), den)

/-- The exponent at which the positive quotient `num / den` has a mantissa of 53 bits, but never
less than that of the smallest number. -/
def exponentFor (num den : Nat) : Int :=
  let guess : Int := (num.log2 : Int) - den.log2 - 52
  let parts := scaled num den guess
  let exact := if parts.1 / parts.2 < Nat.pow 2 52 then guess - 1 else guess
  max exact (-1074)

/-- The number nearest to the positive quotient `num / den`. -/
def ofRatio (negative : Bool) (num den : Nat) : Binary64 :=
  let exponent := exponentFor num den
  let parts := scaled num den exponent
  let mantissa := roundQuotient parts.1 parts.2
  let (mantissa, exponent) :=
    if mantissa = Nat.pow 2 53 then (Nat.pow 2 52, exponent + 1) else (mantissa, exponent)
  if exponent > 971 then .infinite negative
  else if mantissa = 0 then .finite negative 0 0
  else .finite negative mantissa exponent

/-- The number of decimal digits of a positive number. -/
def digitCount (n : Nat) : Nat := (Nat.toDigits 10 n).length

/-- The number nearest to `digits` times ten to the power `power`. -/
def ofDecimal (negative : Bool) (digits : Nat) (power : Int) : Binary64 :=
  let size : Int := digitCount digits + power
  if digits = 0 || size < -330 then .finite negative 0 0
  else if size > 320 then .infinite negative
  else
    match power with
    | .ofNat p => ofRatio negative (digits * Nat.pow 10 p) 1
    | .negSucc p => ofRatio negative digits (Nat.pow 10 (p + 1))

/-- Whether the number is a zero of either sign. -/
def isZero : Binary64 → Bool
  | .finite _ mantissa _ => mantissa == 0
  | _ => false

end Binary64

end LineLint.Decimal
