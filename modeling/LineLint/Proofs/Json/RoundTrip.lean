/-
**Reading back the indented layout.**

The text of a value in the indented layout reads back as the value, as long as no floating-point
number is in it, the names of every object differ, and whole numbers have no more digits than are
allowed.  As reading takes exactly the texts of the grammar, it is enough that the layout follows
the grammar and denotes the value.

Main definitions:

* `LineLint.Json.Short` — whole numbers with no more digits than are allowed;
* `LineLint.Json.Plain` — the values that are read back.

Main results:

* `LineLint.Json.spells_flatMap_escapedChar` — the characters of a string are spelled;
* `LineLint.Json.denotes_integerChars` — the text of a whole number denotes it;
* `LineLint.Json.Plain.denotes` — the indented layout of a plain value denotes it;
* `LineLint.Json.parse_indented` — **the indented layout of a plain value reads back as it**.
-/

import LineLint.Json.Printer
import LineLint.Proofs.Json.Language

set_option relaxedAutoImplicit false
set_option autoImplicit false

namespace LineLint.Json

/-- A whole number has no more digits than are allowed. -/
def Short (digits : Option Nat) (n : Int) : Prop :=
  ∀ limit, digits = some limit → (Text.decimalDigits n.natAbs).length ≤ limit

/-- Values without floating-point numbers in which the names of every object differ and whole
numbers are short. -/
inductive Plain (digits : Option Nat) : Value → Prop
  | null : Plain digits .null
  | bool (value : Bool) : Plain digits (.bool value)
  | int {value : Int} : Short digits value → Plain digits (.int value)
  | string (value : String) : Plain digits (.string value)
  | array {items : List Value} : (∀ item ∈ items, Plain digits item) → Plain digits (.array items)
  | object {members : List (String × Value)} : (members.map Prod.fst).Nodup →
      (∀ member ∈ members, Plain digits member.2) → Plain digits (.object members)

variable {limits : Limits} {digits : Option Nat}

/-! ### Strings -/

/-- A short escape is a backslash and a letter that stands for the character; a numbered one is left
to the other control characters. -/
theorem shortForm?_eq_some {x : Char} {form : List Char} (h : shortForm? x = some form) :
    (∃ letter, form = ['\\', letter] ∧ shortEscape? letter = some x) ∨
      x.toNat < 0x20 ∧ form = numberedEscape x.toNat := by
  have hcode : ∀ {code : Nat}, x.toNat = code → Char.ofNat code = x := by
    rintro _ rfl
    exact Char.ofNat_toNat x
  unfold shortForm? at h
  split at h
  · next hx => cases h; subst hx; exact Or.inl ⟨_, rfl, rfl⟩
  split at h
  · next hx => cases h; subst hx; exact Or.inl ⟨_, rfl, rfl⟩
  split at h
  · next hx => cases h; subst hx; exact Or.inl ⟨_, rfl, rfl⟩
  split at h
  · next hx => cases h; subst hx; exact Or.inl ⟨_, rfl, rfl⟩
  split at h
  · next hx => cases h; subst hx; exact Or.inl ⟨_, rfl, rfl⟩
  split at h
  · next hx => cases h; exact Or.inl ⟨_, rfl, congrArg some (hcode hx)⟩
  split at h
  · next hx => cases h; exact Or.inl ⟨_, rfl, congrArg some (hcode hx)⟩
  split at h
  · next hx => cases h; exact Or.inr ⟨hx, rfl⟩
  · cases h

/-- A character without an escape is no quote, no backslash and no control character. -/
theorem ne_of_shortForm?_eq_none {x : Char} (h : shortForm? x = none) :
    x ≠ '"' ∧ x ≠ '\\' ∧ 0x20 ≤ x.toNat := by
  unfold shortForm? at h
  grind

/-- The four digits of a number below U+10000 read back as it. -/
theorem hexFour?_hexDigits {code : Nat} (h : code < 0x10000) :
    ∃ a b c d, Text.hexDigits 4 code = [a, b, c, d] ∧ hexFour? a b c d = some code := by
  refine ⟨_, _, _, _, rfl, ?_⟩
  unfold hexFour?
  rw [Text.hexValue?_digitChar (by omega), Text.hexValue?_digitChar (by omega),
    Text.hexValue?_digitChar (by omega), Text.hexValue?_digitChar (by omega)]
  simp only [Option.bind_eq_bind, Option.bind_some, Option.pure_def, Option.some.injEq]
  omega

/-- The numbered escape of a control character stands for it. -/
theorem spells_numberedEscape {x : Char} (h : x.toNat < 0x20) {body cs : List Char}
    (hbody : Spells body cs) : Spells (numberedEscape x.toNat ++ body) (x :: cs) := by
  obtain ⟨a, b, c, d, hdigits, hfour⟩ := @hexFour?_hexDigits x.toNat (by omega)
  have hhigh : isHighHalf x.toNat = false := by
    simp only [isHighHalf, Bool.and_eq_false_iff, decide_eq_false_iff_not]
    omega
  have hlow : isLowHalf x.toNat = false := by
    simp only [isLowHalf, Bool.and_eq_false_iff, decide_eq_false_iff_not]
    omega
  have hchar : charOf? x.toNat = some x := by
    rw [charOf?, hhigh, hlow, Char.ofNat_toNat]
    rfl
  rw [numberedEscape, hdigits]
  exact .numbered hfour hchar hbody

theorem spells_escapedChar (x : Char) {body cs : List Char} (hbody : Spells body cs) :
    Spells (escapedChar false x ++ body) (x :: cs) := by
  unfold escapedChar
  split
  · next form hform =>
      rcases shortForm?_eq_some hform with ⟨letter, rfl, hescape⟩ | ⟨hcontrol, rfl⟩
      · exact .short hescape hbody
      · exact spells_numberedEscape hcontrol hbody
  · next hform =>
      obtain ⟨hquote, hbackslash, hcontrol⟩ := ne_of_shortForm?_eq_none hform
      exact .plain hquote hbackslash hcontrol hbody

/-- The characters of a string are spelled one by one. -/
theorem spells_flatMap_escapedChar (cs : List Char) :
    Spells (cs.flatMap (escapedChar false)) cs := by
  induction cs with
  | nil => exact .nil
  | cons x cs ih => exact spells_escapedChar x ih

theorem denotes_escaped (text : String) :
    Denotes limits (escaped false text) (.value (.string text)) := by
  simpa [escaped] using Denotes.string (spells_flatMap_escapedChar text.toList)

/-! ### Whole numbers -/

theorem isWhole_decimalDigits (n : Nat) : IsWhole (Text.decimalDigits n) := by
  rcases Text.decimalDigits_cases n with ⟨-, h⟩ | ⟨c, tail, h, hc⟩
  · exact .inl h
  · refine .inr ⟨⟨by simp [h], fun _ hd => Text.isDigit_of_mem_decimalDigits hd⟩, ?_⟩
    simpa [h] using hc

/-- The text of a short whole number denotes it. -/
theorem denotes_integerChars {n : Int} (h : Short limits.digits n) :
    Denotes limits (Text.integerChars n) (.value (.int n)) := by
  have hnumber (negative : Bool) (size : Nat) (hsize : n.natAbs = size) :
      Denotes limits (minusText negative ++ (Text.decimalDigits size ++ ([] ++ [])))
        (.value (.int (if negative then -size else size))) := by
    have h := Denotes.number
      (@NumberText.mk negative _ _ _ _ _ (isWhole_decimalDigits size) .none .none)
      (fun _ limit hlimit => hsize ▸ h limit hlimit)
    simpa [Numeral.value, Numeral.isWhole] using h
  cases n with
  | ofNat n => simpa [minusText, Text.integerChars] using hnumber false n rfl
  | negSucc n => simpa [minusText, Text.integerChars, Int.negSucc_eq] using hnumber true (n + 1) rfl

/-! ### Arrays and objects -/

theorem isBlank_newLine (depth : Nat) : IsBlank (newLine depth) := by
  intro c hc
  rcases List.mem_cons.1 hc with rfl | hc
  · rfl
  · rw [(List.mem_replicate.1 hc).2]
    rfl

/-- Elements that denote values one by one do so in a row. -/
theorem denotes_indentedItems {depth : Nat} {before after : List Char} (hbefore : IsBlank before)
    (hafter : IsBlank after) {first : Value} {others : List Value}
    (h : ∀ item ∈ first :: others, Denotes limits (indentedChars depth item) (.value item)) :
    Denotes limits (before ++ (Text.joinChars (',' :: newLine depth)
      (indentedItems depth (first :: others)) ++ after)) (.items (first :: others)) := by
  induction others generalizing before first with
  | nil => exact .lastItem hbefore hafter (h first List.mem_cons_self)
  | cons second others ih =>
      obtain ⟨hfirst, hothers⟩ := List.forall_mem_cons.1 h
      have hrest := Denotes.item hbefore isBlank_nil hfirst (ih (isBlank_newLine depth) hothers)
      simpa [indentedItems, Text.joinChars] using hrest

theorem denotes_member {depth : Nat} {member : String × Value}
    (h : Denotes limits (indentedChars depth member.2) (.value member.2)) :
    Denotes limits (escaped false member.1 ++ [':', ' '] ++ indentedChars depth member.2)
      (.member member) := by
  have hblank : IsBlank [' '] := by simp [IsBlank, isGap]
  have hmember := Denotes.member (spells_flatMap_escapedChar member.1.toList) isBlank_nil hblank h
  simpa [escaped] using hmember

/-- Members whose values are denoted one by one are so in a row. -/
theorem denotes_indentedMembers {depth : Nat} {before after : List Char} (hbefore : IsBlank before)
    (hafter : IsBlank after) {first : String × Value} {others : List (String × Value)}
    (h : ∀ member ∈ first :: others,
      Denotes limits (indentedChars depth member.2) (.value member.2)) :
    Denotes limits (before ++ (Text.joinChars (',' :: newLine depth)
      (indentedMembers depth (first :: others)) ++ after)) (.members (first :: others)) := by
  induction others generalizing before first with
  | nil => exact .lastMember hbefore hafter (denotes_member (h first List.mem_cons_self))
  | cons second others ih =>
      obtain ⟨hfirst, hothers⟩ := List.forall_mem_cons.1 h
      have hrest := Denotes.members hbefore isBlank_nil (denotes_member hfirst)
        (ih (isBlank_newLine depth) hothers)
      simpa [indentedMembers, Text.joinChars] using hrest

/-- A member with a new name goes to the end. -/
theorem put_of_nodup {name : String} {item : Value} {read others : List (String × Value)}
    (h : ((read ++ (name, item) :: others).map Prod.fst).Nodup) :
    put name item read = read ++ [(name, item)] := by
  induction read with
  | nil => rfl
  | cons member read ih =>
      rw [List.cons_append, List.map_cons, List.nodup_cons] at h
      have hne : member.1 ≠ name := by
        rintro rfl
        exact h.1 (by simp)
      rw [put, if_neg hne, ih h.2]
      rfl

/-- Members with different names are all kept, in order. -/
theorem collect_of_nodup {read written : List (String × Value)}
    (h : ((read ++ written).map Prod.fst).Nodup) : collect read written = read ++ written := by
  induction written generalizing read with
  | nil => simp [collect]
  | cons member written ih =>
      have hread : put member.1 member.2 read = read ++ [member] := put_of_nodup h
      rw [collect, List.foldl_cons, hread, ← collect, ih (by simpa using h)]
      simp

/-! ### Whole texts -/

/-- The indented layout of a plain value denotes it, at every depth. -/
theorem Plain.denotes {v : Value} (h : Plain digits v) (depth : Nat) :
    Denotes ⟨digits, none⟩ (indentedChars depth v) (.value v) := by
  have hinside : Limits.inside? ⟨digits, none⟩ = some ⟨digits, none⟩ := rfl
  induction h generalizing depth with
  | null => exact .word (by simp [words, indentedChars])
  | bool value => cases value <;> exact .word (by simp [words, indentedChars])
  | int hshort => exact denotes_integerChars hshort
  | string value => exact denotes_escaped value
  | @array items _ ih =>
      cases items with
      | nil => exact .noItems hinside isBlank_nil
      | cons first others =>
          have harray := Denotes.array hinside (denotes_indentedItems (isBlank_newLine (depth + 1))
            (isBlank_newLine depth) fun item hitem => ih item hitem (depth + 1))
          simpa [indentedChars] using harray
  | @object members hnames _ ih =>
      cases members with
      | nil => exact .noMembers hinside isBlank_nil
      | cons first others =>
          have hinner := denotes_indentedMembers (isBlank_newLine (depth + 1))
            (isBlank_newLine depth) fun member hmember => ih member hmember (depth + 1)
          have hobject := Denotes.object hinside hinner
          rw [collect_of_nodup hnames] at hobject
          simpa [indentedChars] using hobject

/-- **The indented layout of a plain value, with a line feed after it, reads back as the value.** -/
theorem parse_indented {v : Value} (h : Plain digits v) :
    parse (indentedChars 0 v ++ ['\n']) ⟨digits, none⟩ = .ok v := by
  rw [parse_eq_ok_iff]
  exact ⟨[], indentedChars 0 v, ['\n'], rfl, isBlank_nil, isBlank_newLine 0, h.denotes 0⟩

end LineLint.Json
