/-
**Numbers written in digits.**

Main definitions:

* `LineLint.Text.decimalDigits`, `LineLint.Text.ofDecimalDigits` — a number and its decimal digits;
* `LineLint.Text.integer` — the text of an integer;
* `LineLint.Text.digitLimit` — the number of digits that are read as a number;
* `LineLint.Text.hexDigits`, `LineLint.Text.hexValue?` — hexadecimal digits of a fixed width, and
  the value of one.

Main results:

* `LineLint.Text.ofDecimalDigits_decimalDigits` — the digits of a number read back as it;
* `LineLint.Text.decimalDigits_cases` — zero has the digit zero, any other number begins with
  another digit;
* `LineLint.Text.hexValue?_digitChar` — the value of a hexadecimal digit.
-/

set_option relaxedAutoImplicit false
set_option autoImplicit false

namespace LineLint.Text

/-- The digit with value `d`, in lower case above nine. -/
def digitChar (d : Nat) : Char :=
  if d < 10 then Char.ofNat (48 + d) else Char.ofNat (87 + d)

/-- The decimal digits of `n`, without leading zeros. -/
def decimalDigits (n : Nat) : List Char :=
  if n < 10 then [digitChar n] else decimalDigits (n / 10) ++ [digitChar (n % 10)]
termination_by n

/-- The number with the given decimal digits. -/
def ofDecimalDigits (digits : List Char) : Nat :=
  digits.foldl (fun value c => value * 10 + (c.toNat - 48)) 0

theorem digitChar_toNat {d : Nat} (h : d < 10) : (digitChar d).toNat = 48 + d := by
  have hvalid : (48 + d).isValidChar := Or.inl (by omega)
  rw [digitChar, if_pos h, Char.ofNat, dif_pos hvalid]
  rfl

theorem ofDecimalDigits_append (first : List Char) (c : Char) :
    ofDecimalDigits (first ++ [c]) = ofDecimalDigits first * 10 + (c.toNat - 48) := by
  simp [ofDecimalDigits]

/-- The digits of a number read back as it. -/
@[simp] theorem ofDecimalDigits_decimalDigits (n : Nat) :
    ofDecimalDigits (decimalDigits n) = n := by
  induction n using Nat.strongRecOn with
  | _ n ih =>
    rw [decimalDigits]
    split
    · next h => simp [ofDecimalDigits, digitChar_toNat h]
    · next h =>
      rw [ofDecimalDigits_append, ih (n / 10) (by omega), digitChar_toNat (by omega)]
      omega

theorem isDigit_digitChar {d : Nat} (h : d < 10) : (digitChar d).isDigit = true := by
  have hall : ∀ d < 10, (digitChar d).isDigit = true := by decide
  exact hall d h

theorem isDigit_of_mem_decimalDigits {n : Nat} {c : Char} (h : c ∈ decimalDigits n) :
    c.isDigit = true := by
  induction n using Nat.strongRecOn with
  | _ n ih =>
    rw [decimalDigits] at h
    split at h
    · next hn =>
      rw [List.mem_singleton.mp h]
      exact isDigit_digitChar hn
    · next hn =>
      rcases List.mem_append.mp h with h | h
      · exact ih (n / 10) (by omega) h
      · rw [List.mem_singleton.mp h]
        exact isDigit_digitChar (by omega)

/-- Zero has the digit zero, and the digits of any other number begin with another one. -/
theorem decimalDigits_cases (n : Nat) :
    n = 0 ∧ decimalDigits n = ['0'] ∨ ∃ c rest, decimalDigits n = c :: rest ∧ c ≠ '0' := by
  induction n using Nat.strongRecOn with
  | _ n ih =>
    rw [decimalDigits]
    split
    · next hn =>
      have hall : ∀ n < 10, n = 0 ∧ [digitChar n] = ['0'] ∨ digitChar n ≠ '0' := by decide
      rcases hall n hn with h | h
      · exact Or.inl h
      · exact Or.inr ⟨_, _, rfl, h⟩
    · next hn =>
      rcases ih (n / 10) (by omega) with ⟨h, -⟩ | ⟨c, rest, h, hc⟩
      · omega
      · exact Or.inr ⟨c, _, by rw [h]; rfl, hc⟩

/-- The characters of an integer: a minus sign if it is negative, and its decimal digits. -/
def integerChars (value : Int) : List Char :=
  match value with
  | .ofNat n => decimalDigits n
  | .negSucc n => '-' :: decimalDigits (n + 1)

/-- The text of an integer. -/
def integer (value : Int) : String := String.ofList (integerChars value)

/-- The text of a natural number. -/
def natural (value : Nat) : String := String.ofList (decimalDigits value)

/-- The number of digits that a text may have to be read as a number, unless something else is
asked for. -/
def digitLimit : Nat := 4300

/-- What is said of a number with more digits than `limit`. -/
def tooManyDigits (limit digits : Nat) : String :=
  "Exceeds the limit (" ++ natural limit ++ " digits) for integer string conversion: value has " ++
    natural digits ++ " digits; use sys.set_int_max_str_digits() to increase the limit"

/-- The last `width` hexadecimal digits of `n`. -/
def hexDigits : Nat → Nat → List Char
  | 0, _ => []
  | width + 1, n => hexDigits width (n / 16) ++ [digitChar (n % 16)]

/-- The value of a hexadecimal digit of either case. -/
def hexValue? (c : Char) : Option Nat :=
  if '0' ≤ c ∧ c ≤ '9' then some (c.toNat - 48)
  else if 'a' ≤ c ∧ c ≤ 'f' then some (c.toNat - 87)
  else if 'A' ≤ c ∧ c ≤ 'F' then some (c.toNat - 55)
  else none

theorem hexValue?_digitChar {d : Nat} (h : d < 16) : hexValue? (digitChar d) = some d := by
  have hall : ∀ d < 16, hexValue? (digitChar d) = some d := by decide
  exact hall d h

end LineLint.Text
