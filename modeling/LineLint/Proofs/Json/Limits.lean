/-
**What the limits of reading do.**

A limit of digits keeps long numbers out of every place of a value.  A limit of depth is the only
thing that breaks the reading off, and it does so at the first array or object that stands too deep,
whatever comes after it.

Main definitions:

* `LineLint.Json.AllShort`, `LineLint.Json.Phrase.AllShort` — the whole numbers in a value, or in
  a part of a text, are short;
* `LineLint.Json.Goes` — with some fuel, reading without a limit of depth does not break off.

Main results:

* `LineLint.Text.length_decimalDigits_le` — no number has more digits than any text that reads as
  it;
* `LineLint.Json.Denotes.allShort` — **what is read has short numbers only**;
* `LineLint.Json.parse_unlimited` — limits do not change what is read as what;
* `LineLint.Json.fault_ne_crash` — **without a limit of depth the reading does not break off**;
* `LineLint.Json.value_nested` — arrays that stand too deep break it off.
-/

import LineLint.Proofs.Json.RoundTrip
import Mathlib.Algebra.Ring.Int.Defs
import Mathlib.Algebra.Ring.Nat

set_option relaxedAutoImplicit false
set_option autoImplicit false

/-! ### How many digits a number has -/

namespace LineLint.Text

theorem isDigit_toNat {c : Char} (h : c.isDigit = true) : c.toNat - 48 < 10 := by
  simp only [Char.isDigit, Bool.and_eq_true, decide_eq_true_eq] at h
  have hle : c.toNat ≤ 57 := h.2
  omega

theorem foldl_lt_of_isDigit {digits : List Char} (h : ∀ c ∈ digits, c.isDigit = true)
    (value : Nat) :
    digits.foldl (fun value c => value * 10 + (c.toNat - 48)) value <
      (value + 1) * 10 ^ digits.length := by
  induction digits generalizing value with
  | nil => simp
  | cons c digits ih =>
    obtain ⟨hc, hdigits⟩ := List.forall_mem_cons.1 h
    have hnext : value * 10 + (c.toNat - 48) + 1 ≤ (value + 1) * 10 := by
      have hdigit := isDigit_toNat hc
      omega
    calc
      (c :: digits).foldl (fun value c => value * 10 + (c.toNat - 48)) value
        < (value * 10 + (c.toNat - 48) + 1) * 10 ^ digits.length := ih hdigits _
      _ ≤ (value + 1) * 10 * 10 ^ digits.length := Nat.mul_le_mul_right _ hnext
      _ = (value + 1) * 10 ^ (c :: digits).length := by
        rw [List.length_cons, Nat.pow_succ', Nat.mul_assoc]

theorem length_decimalDigits_of_lt {n k : Nat} (h : n < 10 ^ (k + 1)) :
    (decimalDigits n).length ≤ k + 1 := by
  induction k generalizing n with
  | zero => simp [decimalDigits, show n < 10 from h]
  | succ k ih =>
    rw [decimalDigits]
    split
    · simp
    · have hdiv : n / 10 < 10 ^ (k + 1) := by
        rw [Nat.div_lt_iff_lt_mul (by decide), ← Nat.pow_succ]
        exact h
      have hlength := ih hdiv
      simp only [List.length_append, List.length_singleton]
      omega

/-- No number has more digits than any text that reads as it. -/
theorem length_decimalDigits_le {digits : List Char} (hne : digits ≠ [])
    (h : ∀ c ∈ digits, c.isDigit = true) :
    (decimalDigits (ofDecimalDigits digits)).length ≤ digits.length := by
  obtain ⟨k, hk⟩ : ∃ k, digits.length = k + 1 :=
    Nat.exists_eq_succ_of_ne_zero (by simpa using hne)
  have hlt := foldl_lt_of_isDigit h 0
  rw [Nat.zero_add, Nat.one_mul, hk] at hlt
  rw [hk]
  exact length_decimalDigits_of_lt hlt

/-- A number with more than `k` digits. -/
theorem lt_length_decimalDigits {n k : Nat} (h : 10 ^ k ≤ n) : k < (decimalDigits n).length := by
  have hdigits : ∀ c ∈ decimalDigits n, c.isDigit = true := fun _ => isDigit_of_mem_decimalDigits
  have hlt := foldl_lt_of_isDigit hdigits 0
  have hread := ofDecimalDigits_decimalDigits n
  rw [ofDecimalDigits] at hread
  rw [hread, Nat.zero_add, Nat.one_mul] at hlt
  exact (Nat.pow_lt_pow_iff_right (by decide)).1 (Nat.lt_of_le_of_lt h hlt)

end LineLint.Text

namespace LineLint.Json

/-! ### Short numbers -/

/-- The whole numbers in a value are short. -/
inductive AllShort (digits : Option Nat) : Value → Prop
  | null : AllShort digits .null
  | bool (value : Bool) : AllShort digits (.bool value)
  | int {value : Int} : Short digits value → AllShort digits (.int value)
  | float (value : Decimal.Binary64) : AllShort digits (.float value)
  | string (value : String) : AllShort digits (.string value)
  | array {items : List Value} : (∀ item ∈ items, AllShort digits item) →
      AllShort digits (.array items)
  | object {members : List (String × Value)} :
      (∀ member ∈ members, AllShort digits member.2) → AllShort digits (.object members)

section AllShort

variable {digits : Option Nat} {items : List Value} {members : List (String × Value)} {n : Int}

theorem AllShort.of_int (h : AllShort digits (.int n)) : Short digits n := by
  cases h with
  | int h => exact h

theorem AllShort.of_array (h : AllShort digits (.array items)) :
    ∀ item ∈ items, AllShort digits item := by
  cases h with
  | array h => exact h

theorem AllShort.of_object (h : AllShort digits (.object members)) :
    ∀ member ∈ members, AllShort digits member.2 := by
  cases h with
  | object h => exact h

/-- The first number that is too long for a limit. -/
theorem not_short_pow (limit : Nat) : ¬Short (some limit) (10 ^ limit) := by
  intro h
  have hle := h limit rfl
  rw [Int.natAbs_pow] at hle
  exact Nat.not_lt.2 hle (Text.lt_length_decimalDigits (Nat.le_refl (10 ^ limit)))

end AllShort

/-- The whole numbers in a part of a text are short. -/
def Phrase.AllShort (digits : Option Nat) : Phrase → Prop
  | .value v => Json.AllShort digits v
  | .items values => ∀ v ∈ values, Json.AllShort digits v
  | .member (_, v) => Json.AllShort digits v
  | .members written => ∀ m ∈ written, Json.AllShort digits m.2

theorem digits_of_inside? {limits inside : Limits} (h : limits.inside? = some inside) :
    inside.digits = limits.digits := by
  unfold Limits.inside? at h
  grind

theorem allShort_of_words {digits : Option Nat} {text : List Char} {v : Value}
    (h : (text, v) ∈ words) : AllShort digits v := by
  simp only [words, List.mem_cons, Prod.mk.injEq, List.not_mem_nil, or_false] at h
  obtain ⟨-, rfl⟩ | ⟨-, rfl⟩ | ⟨-, rfl⟩ | ⟨-, rfl⟩ | ⟨-, rfl⟩ | ⟨-, rfl⟩ := h
  · exact .null
  · exact .bool true
  · exact .bool false
  · exact .float _
  · exact .float _
  · exact .float _

/-- A number within the limits is short, if it is whole. -/
theorem NumberText.allShort {limits : Limits} {text : List Char} {n : Numeral}
    (h : NumberText text n) (hwithin : n.Within limits) : AllShort limits.digits n.value := by
  unfold Numeral.value
  split
  · next hwhole =>
      refine .int fun limit hlimit => Nat.le_trans ?_ (hwithin hwhole limit hlimit)
      cases h with
      | @mk negative whole _ _ _ _ hdigits =>
          have hle := Text.length_decimalDigits_le hdigits.ne_nil hdigits.isDigit
          cases negative with
          | true => simpa using hle
          | false => simpa using hle
  · exact .float _

/-- The members of an object are among those that were written. -/
theorem mem_collect {read written : List (String × Value)} {member : String × Value}
    (h : member ∈ collect read written) : member ∈ read ∨ member ∈ written := by
  induction written generalizing read with
  | nil => exact Or.inl h
  | cons first written ih =>
      rcases ih h with h | h
      · rcases mem_put h with h | h
        · exact Or.inr (h ▸ List.mem_cons_self)
        · exact Or.inl h
      · exact Or.inr (List.mem_cons_of_mem _ h)

/-- **What is read has short numbers only.** -/
theorem Denotes.allShort {limits : Limits} {text : List Char} {phrase : Phrase}
    (h : Denotes limits text phrase) : phrase.AllShort limits.digits := by
  induction h with
  | word h => exact allShort_of_words h
  | number h hwithin => exact h.allShort hwithin
  | string => exact AllShort.string _
  | noItems => exact AllShort.array (by simp)
  | array hinside _ ih => exact AllShort.array (digits_of_inside? hinside ▸ ih)
  | noMembers => exact AllShort.object (by simp)
  | object hinside _ ih =>
      refine AllShort.object fun member hmember => ?_
      rw [← digits_of_inside? hinside]
      exact ih member ((mem_collect hmember).resolve_left (by simp))
  | lastItem _ _ _ ih => exact List.forall_mem_singleton.2 ih
  | item _ _ _ _ ih ihrest => exact List.forall_mem_cons.2 ⟨ih, ihrest⟩
  | member _ _ _ _ ih => exact ih
  | lastMember _ _ _ ih => exact List.forall_mem_singleton.2 ih
  | members _ _ _ _ ih ihrest => exact List.forall_mem_cons.2 ⟨ih, ihrest⟩

/-- The numbers in a text that is read are short. -/
theorem allShort_of_parse {limits : Limits} {cs : List Char} {v : Value}
    (h : parse cs limits = .ok v) : AllShort limits.digits v := by
  obtain ⟨_, _, _, -, -, -, hdenotes⟩ := (parse_eq_ok_iff limits cs v).1 h
  exact hdenotes.allShort

/-! ### Reading without limits -/

/-- What is read within limits is read without them, as the same. -/
theorem Denotes.unlimited {limits : Limits} {text : List Char} {phrase : Phrase}
    (h : Denotes limits text phrase) : Denotes {} text phrase := by
  induction h with
  | word h => exact .word h
  | number h => exact .number h fun _ _ => nofun
  | string h => exact .string h
  | noItems _ hgap => exact .noItems rfl hgap
  | array _ _ ih => exact .array rfl ih
  | noMembers _ hgap => exact .noMembers rfl hgap
  | object _ _ ih => exact .object rfl ih
  | lastItem hbefore hafter _ ih => exact .lastItem hbefore hafter ih
  | item hbefore hafter _ _ ih ihrest => exact .item hbefore hafter ih ihrest
  | member hname hbefore hafter _ ih => exact .member hname hbefore hafter ih
  | lastMember hbefore hafter _ ih => exact .lastMember hbefore hafter ih
  | members hbefore hafter _ _ ih ihrest => exact .members hbefore hafter ih ihrest

theorem parse_unlimited {limits : Limits} {cs : List Char} {v : Value}
    (h : parse cs limits = .ok v) : parse cs = .ok v := by
  obtain ⟨before, text, after, hcs, hbefore, hafter, hdenotes⟩ := (parse_eq_ok_iff limits cs v).1 h
  exact (parse_eq_ok_iff {} cs v).2
    ⟨before, text, after, hcs, hbefore, hafter, hdenotes.unlimited⟩

/-! ### Reading without a limit of depth -/

theorem stringBody_ne_crash {opening position : Nat} {read text : List Char} {error : Error}
    (h : stringBody opening position read text = .error error) (cause : Crash) :
    error.fault ≠ .crash cause := by
  fun_induction stringBody opening position read text <;> grind

theorem scalar_ne_crash {limits : Limits} {cursor : Cursor} {error : Error}
    (h : scalar limits cursor = .error error) (cause : Crash) : error.fault ≠ .crash cause := by
  unfold scalar Cursor.fail at h
  grind

theorem inside?_of_depth {limits : Limits} (h : limits.depth = none) :
    limits.inside? = some limits := by
  unfold Limits.inside?
  rw [h]

/-- With some fuel, reading without a limit of depth does not break off. -/
structure Goes (fuel : Nat) : Prop where
  value : ∀ {limits : Limits} {cursor : Cursor} {error : Error}, limits.depth = none →
    Json.value limits fuel cursor = .error error → ∀ cause, error.fault ≠ .crash cause
  elements : ∀ {limits : Limits} {cursor : Cursor} {error : Error}, limits.depth = none →
    Json.elements limits fuel cursor = .error error → ∀ cause, error.fault ≠ .crash cause
  members : ∀ {limits : Limits} {read : List (String × Value)} {cursor : Cursor} {error : Error},
    limits.depth = none → Json.members limits fuel read cursor = .error error →
      ∀ cause, error.fault ≠ .crash cause

section Goes

variable {limits : Limits} {fuel : Nat} {cursor : Cursor} {error : Error}

theorem Goes.elements_succ (ih : Goes fuel) (hdepth : limits.depth = none)
    (h : Json.elements limits (fuel + 1) cursor = .error error) (cause : Crash) :
    error.fault ≠ .crash cause := by
  rw [Json.elements] at h
  rcases error_of_bind_eq_error h with h | ⟨⟨first, next⟩, -, h⟩
  · exact ih.value hdepth h cause
  · dsimp only at h
    split at h
    · cases h
    · rcases error_of_bind_eq_error h with h | ⟨⟨others, last⟩, -, h⟩
      · exact ih.elements hdepth h cause
      · cases h
    · cases h
      simp

theorem Goes.members_succ (ih : Goes fuel) (hdepth : limits.depth = none)
    {read : List (String × Value)}
    (h : Json.members limits (fuel + 1) read cursor = .error error) (cause : Crash) :
    error.fault ≠ .crash cause := by
  rw [Json.members] at h
  split at h
  · rcases error_of_bind_eq_error h with h | ⟨⟨name, afterName⟩, -, h⟩
    · exact stringBody_ne_crash h cause
    · dsimp only at h
      split at h
      · rcases error_of_bind_eq_error h with h | ⟨⟨item, next⟩, -, h⟩
        · exact ih.value hdepth h cause
        · dsimp only at h
          split at h
          · cases h
          · exact ih.members hdepth h cause
          · cases h
            simp
      · cases h
        simp
  · cases h
    simp

theorem Goes.value_succ (ih : Goes fuel) (hdepth : limits.depth = none)
    (h : Json.value limits (fuel + 1) cursor = .error error) (cause : Crash) :
    error.fault ≠ .crash cause := by
  rw [Json.value, inside?_of_depth hdepth] at h
  split at h
  · rcases error_of_bind_eq_error h with h | ⟨⟨name, next⟩, -, h⟩
    · exact stringBody_ne_crash h cause
    · cases h
  · dsimp only at h
    split at h
    · cases h
    · rcases error_of_bind_eq_error h with h | ⟨⟨values, next⟩, -, h⟩
      · exact ih.elements hdepth h cause
      · cases h
  · dsimp only at h
    split at h
    · cases h
    · rcases error_of_bind_eq_error h with h | ⟨⟨result, next⟩, -, h⟩
      · exact ih.members hdepth h cause
      · cases h
  · exact scalar_ne_crash h cause

theorem goes (fuel : Nat) : Goes fuel := by
  induction fuel with
  | zero =>
      constructor
      · rintro _ _ _ - ⟨⟩
        simp
      · rintro _ _ _ - ⟨⟩
        simp
      · rintro _ _ _ _ - ⟨⟩
        simp
  | succ fuel ih => exact ⟨ih.value_succ, ih.elements_succ, fun h => ih.members_succ h⟩

end Goes

/-- **Without a limit of depth the reading does not break off.** -/
theorem fault_ne_crash {limits : Limits} (hdepth : limits.depth = none) {cs : List Char}
    {error : Error} (h : parse cs limits = .error error) (cause : Crash) :
    error.fault ≠ .crash cause := by
  unfold parse at h
  split at h
  · cases h
    simp
  · rcases error_of_bind_eq_error h with h | ⟨⟨result, next⟩, -, h⟩
    · exact (goes _).value hdepth h cause
    · dsimp only at h
      split at h
      · cases h
      · cases h
        simp

/-! ### Arrays that stand too deep -/

/-- Arrays that stand too deep break the reading off, whatever comes after them.  Every one of them
takes two calls. -/
theorem value_nested {digits : Option Nat} {depth n fuel : Nat} (hn : depth < n)
    (hfuel : 2 * depth < fuel) (position : Nat) (rest : List Char) :
    ∃ place, value ⟨digits, some depth⟩ fuel ⟨position, List.replicate n '[' ++ rest⟩ =
      .error ⟨.crash .nestedArrays, place⟩ := by
  induction depth generalizing n fuel position with
  | zero =>
      obtain ⟨n, rfl⟩ : ∃ m, n = m + 1 := Nat.exists_eq_succ_of_ne_zero (by omega)
      obtain ⟨fuel, rfl⟩ : ∃ m, fuel = m + 1 := Nat.exists_eq_succ_of_ne_zero (by omega)
      exact ⟨position, rfl⟩
  | succ depth ih =>
      obtain ⟨n, rfl⟩ : ∃ m, n = m + 2 := Nat.exists_eq_add_of_le' (by omega)
      obtain ⟨fuel, rfl⟩ : ∃ m, fuel = m + 2 := Nat.exists_eq_add_of_le' (by omega)
      obtain ⟨place, hplace⟩ :=
        @ih (n + 1) fuel (by omega) (by omega) (position + 1)
      refine ⟨place, ?_⟩
      have hgap : Cursor.skipGap ⟨position + 1, List.replicate (n + 1) '[' ++ rest⟩ =
          ⟨position + 1, List.replicate (n + 1) '[' ++ rest⟩ :=
        skipGap_append isBlank_nil (c := '[') rfl (position + 1) _
      have helements : elements ⟨digits, some depth⟩ (fuel + 1)
          ⟨position + 1, List.replicate (n + 1) '[' ++ rest⟩ =
            .error ⟨.crash .nestedArrays, place⟩ := by
        rw [elements, hplace]
        rfl
      rw [List.replicate_succ, List.cons_append, value]
      simp only [Limits.inside?, Cursor.skip, List.drop_succ_cons, List.drop_zero, hgap]
      rw [helements]
      rfl

end LineLint.Json
