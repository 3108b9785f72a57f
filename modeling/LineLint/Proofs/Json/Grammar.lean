/-
**The grammar of JSON texts.**

The texts of strings, numbers and values are described by rules, without a reader: what stands
between the quotes of a string and what it spells, the parts of a number, and the phrases that
values, the elements of arrays and the members of objects are made of.  Blanks may stand around
every element and on both sides of a colon.  What a text is allowed to hold depends on the limits.

A number escape stands for a character, so it is no half of a pair, unless the other half follows.

Main definitions:

* `LineLint.Json.Spells` — what stands between quotes, and the characters it spells;
* `LineLint.Json.NumberText` — the text of a number, and its parts;
* `LineLint.Json.collect` — the members of an object: the last one of a name wins;
* `LineLint.Json.Denotes` — **the text of a value, of elements and of members**, within limits;
* `LineLint.Json.IsText` — a whole text and its value.

Main results:

* `LineLint.Json.get?_collect` — the last of several members of one name counts;
* `LineLint.Json.Denotes.items_gap`, `LineLint.Json.Denotes.members_gap` — blanks in front do not
  matter.
-/

import LineLint.Json.Parser
import Mathlib.Data.List.Induction

set_option relaxedAutoImplicit false
set_option autoImplicit false

namespace LineLint.Json

/-! ### Strings -/

/-- What stands between the quotes of a string, and the characters it spells. -/
inductive Spells : List Char → List Char → Prop where
  | nil : Spells [] []
  | plain {x : Char} {body cs : List Char} : x ≠ '"' → x ≠ '\\' → 0x20 ≤ x.toNat →
      Spells body cs → Spells (x :: body) (x :: cs)
  | short {letter x : Char} {body cs : List Char} : shortEscape? letter = some x →
      Spells body cs → Spells ('\\' :: letter :: body) (x :: cs)
  | numbered {a b c d x : Char} {code : Nat} {body cs : List Char} :
      hexFour? a b c d = some code → charOf? code = some x →
      Spells body cs → Spells ('\\' :: 'u' :: a :: b :: c :: d :: body) (x :: cs)
  | pair {a b c d e f g h : Char} {high low : Nat} {body cs : List Char} :
      hexFour? a b c d = some high → isHighHalf high = true →
      hexFour? e f g h = some low → isLowHalf low = true → Spells body cs →
      Spells ('\\' :: 'u' :: a :: b :: c :: d :: '\\' :: 'u' :: e :: f :: g :: h :: body)
        (joinHalves high low :: cs)

/-! ### Numbers -/

/-- One digit or more. -/
def IsDigits (digits : List Char) : Prop := digits ≠ [] ∧ ∀ c ∈ digits, c.isDigit = true

/-- The whole part of a number: a zero alone, or digits that begin with another one. -/
def IsWhole (digits : List Char) : Prop :=
  digits = ['0'] ∨ IsDigits digits ∧ digits.head? ≠ some '0'

/-- The text of a fraction, and its digits. -/
inductive FractionText : List Char → List Char → Prop where
  | none : FractionText [] []
  | some {digits : List Char} : IsDigits digits → FractionText ('.' :: digits) digits

/-- The sign of an exponent. -/
inductive SignText : List Char → Int → Prop where
  | none : SignText [] 1
  | plus : SignText ['+'] 1
  | minus : SignText ['-'] (-1)

/-- The text of an exponent, and its value. -/
inductive ExponentText : List Char → Option Int → Prop where
  | none : ExponentText [] none
  | some {mark : Char} {signText digits : List Char} {sign : Int} : mark = 'e' ∨ mark = 'E' →
      SignText signText sign → IsDigits digits →
      ExponentText (mark :: (signText ++ digits)) (some (sign * Text.ofDecimalDigits digits))

/-- The minus sign of a number, if it has one. -/
def minusText (negative : Bool) : List Char := if negative then ['-'] else []

/-- The text of a number, and its parts. -/
inductive NumberText : List Char → Numeral → Prop where
  | mk {negative : Bool} {whole fractionText fraction exponentText : List Char}
      {exponent : Option Int} : IsWhole whole → FractionText fractionText fraction →
      ExponentText exponentText exponent →
      NumberText (minusText negative ++ (whole ++ (fractionText ++ exponentText)))
        ⟨negative, whole, fraction, exponent,
          (minusText negative ++ (whole ++ (fractionText ++ exponentText))).length⟩

/-- A number is within the limits: if it is whole, it has not too many digits. -/
def Numeral.Within (limits : Limits) (n : Numeral) : Prop :=
  n.isWhole = true → ∀ limit, limits.digits = some limit → n.whole.length ≤ limit

/-! ### Values -/

/-- Blanks. -/
def IsBlank (gap : List Char) : Prop := ∀ c ∈ gap, isGap c = true

/-- The members of an object, from the ones that were written: the last one of a name wins. -/
def collect (read written : List (String × Value)) : List (String × Value) :=
  written.foldl (fun read member => put member.1 member.2 read) read

/-- What a part of a text stands for. -/
inductive Phrase where
  | value (value : Value)
  /-- The elements of an array that is not empty. -/
  | items (values : List Value)
  /-- A name and a value. -/
  | member (member : String × Value)
  /-- The members of an object that is not empty, as they are written. -/
  | members (written : List (String × Value))

/-- The text of a value, of the elements of an array and of the members of an object, within
limits.  There is one array or object less to go in an array or an object. -/
inductive Denotes : Limits → List Char → Phrase → Prop where
  | word {limits : Limits} {text : List Char} {v : Value} : (text, v) ∈ words →
      Denotes limits text (.value v)
  | number {limits : Limits} {text : List Char} {n : Numeral} : NumberText text n →
      n.Within limits → Denotes limits text (.value n.value)
  | string {limits : Limits} {body cs : List Char} : Spells body cs →
      Denotes limits ('"' :: (body ++ ['"'])) (.value (.string (String.ofList cs)))
  | noItems {limits inside : Limits} {gap : List Char} : limits.inside? = some inside →
      IsBlank gap → Denotes limits ('[' :: (gap ++ [']'])) (.value (.array []))
  | array {limits inside : Limits} {inner : List Char} {values : List Value} :
      limits.inside? = some inside → Denotes inside inner (.items values) →
      Denotes limits ('[' :: (inner ++ [']'])) (.value (.array values))
  | noMembers {limits inside : Limits} {gap : List Char} : limits.inside? = some inside →
      IsBlank gap → Denotes limits ('\x7b' :: (gap ++ ['\x7d'])) (.value (.object []))
  | object {limits inside : Limits} {inner : List Char} {written : List (String × Value)} :
      limits.inside? = some inside → Denotes inside inner (.members written) →
      Denotes limits ('\x7b' :: (inner ++ ['\x7d'])) (.value (.object (collect [] written)))
  | lastItem {limits : Limits} {before text after : List Char} {v : Value} : IsBlank before →
      IsBlank after → Denotes limits text (.value v) →
      Denotes limits (before ++ (text ++ after)) (.items [v])
  | item {limits : Limits} {before text after rest : List Char} {v : Value}
      {values : List Value} : IsBlank before → IsBlank after → Denotes limits text (.value v) →
      Denotes limits rest (.items values) →
      Denotes limits (before ++ (text ++ (after ++ ',' :: rest))) (.items (v :: values))
  | member {limits : Limits} {body name before after text : List Char} {v : Value} :
      Spells body name → IsBlank before → IsBlank after → Denotes limits text (.value v) →
      Denotes limits ('"' :: (body ++ '"' :: (before ++ ':' :: (after ++ text))))
        (.member (String.ofList name, v))
  | lastMember {limits : Limits} {before text after : List Char} {member : String × Value} :
      IsBlank before → IsBlank after → Denotes limits text (.member member) →
      Denotes limits (before ++ (text ++ after)) (.members [member])
  | members {limits : Limits} {before text after rest : List Char} {member : String × Value}
      {written : List (String × Value)} : IsBlank before → IsBlank after →
      Denotes limits text (.member member) → Denotes limits rest (.members written) →
      Denotes limits (before ++ (text ++ (after ++ ',' :: rest))) (.members (member :: written))

/-- A whole text is a value with blanks around it. -/
def IsText (limits : Limits) (cs : List Char) (v : Value) : Prop :=
  ∃ before text after, cs = before ++ (text ++ after) ∧ IsBlank before ∧ IsBlank after ∧
    Denotes limits text (.value v)

/-! ### Blanks -/

theorem isBlank_nil : IsBlank [] := by simp [IsBlank]

theorem IsBlank.append {gap gap' : List Char} (h : IsBlank gap) (h' : IsBlank gap') :
    IsBlank (gap ++ gap') := by
  intro c hc
  rcases List.mem_append.mp hc with hc | hc
  · exact h c hc
  · exact h' c hc

/-- Blanks may stand in front of elements. -/
theorem Denotes.items_gap {limits : Limits} {gap text : List Char} {values : List Value}
    (hgap : IsBlank gap) (h : Denotes limits text (.items values)) :
    Denotes limits (gap ++ text) (.items values) := by
  cases h with
  | lastItem hbefore hafter hvalue =>
      rw [← List.append_assoc]
      exact .lastItem (hgap.append hbefore) hafter hvalue
  | item hbefore hafter hvalue hrest =>
      rw [← List.append_assoc]
      exact .item (hgap.append hbefore) hafter hvalue hrest

/-- Blanks may stand in front of members. -/
theorem Denotes.members_gap {limits : Limits} {gap text : List Char}
    {written : List (String × Value)} (hgap : IsBlank gap)
    (h : Denotes limits text (.members written)) :
    Denotes limits (gap ++ text) (.members written) := by
  cases h with
  | lastMember hbefore hafter hmember =>
      rw [← List.append_assoc]
      exact .lastMember (hgap.append hbefore) hafter hmember
  | members hbefore hafter hmember hrest =>
      rw [← List.append_assoc]
      exact .members (hgap.append hbefore) hafter hmember hrest

/-! ### Members of one name -/

/-- Of several members of one name the last one counts. -/
theorem get?_collect (name : String) (written : List (String × Value)) :
    get? name (collect [] written) = get? name written.reverse := by
  induction written using List.reverseRecOn with
  | nil => rfl
  | append_singleton written member ih =>
      have hcollect : collect [] (written ++ [member]) =
          put member.1 member.2 (collect [] written) := by
        simp [collect]
      rw [hcollect, List.reverse_append, List.reverse_singleton, List.singleton_append]
      by_cases h : member.1 = name
      · subst h
        rw [get?_put_self]
        simp [get?]
      · rw [get?_put_of_ne (Ne.symm h), ih]
        simp [get?, h]

end LineLint.Json
