/-
**Strings and numbers are read as the grammar says.**

A string is read up to its closing quote exactly if what stands before it spells something, and
gives what it spells.  A number is read as far as it goes: what follows it must neither go on with
its digits nor begin a fraction or an exponent.

Main definitions:

* `LineLint.Json.Stops` — what may follow a number.

Main results:

* `LineLint.Json.Spells.stringBody_eq` — what spells a string is read;
* `LineLint.Json.exists_spells_of_stringBody` — **what is read as a string spells it**;
* `LineLint.Json.NumberText.numeral?_eq` — the text of a number is read;
* `LineLint.Json.exists_numberText` — **what is read as a number is the text of one**.
-/

import LineLint.Proofs.Json.Grammar
import Mathlib.Data.List.TakeWhile

set_option relaxedAutoImplicit false
set_option autoImplicit false

namespace LineLint.Json

/-! ### One character of a string -/

section Steps

variable {opening position : Nat} {read tail : List Char}

theorem stringBody_plain {x : Char} (hquote : x ≠ '"') (hbackslash : x ≠ '\\')
    (hcontrol : 0x20 ≤ x.toNat) :
    stringBody opening position read (x :: tail) =
      stringBody opening (position + 1) (x :: read) tail := by
  rw [stringBody.eq_def]
  split <;> grind

theorem stringBody_short {letter x : Char} (h : shortEscape? letter = some x) :
    stringBody opening position read ('\\' :: letter :: tail) =
      stringBody opening (position + 2) (x :: read) tail := by
  have hletter : letter ≠ 'u' := by
    rintro rfl
    cases h
  rw [stringBody.eq_def]
  split <;> grind

theorem stringBody_pair {a b c d e f g h : Char} {high low : Nat}
    (hhigh : hexFour? a b c d = some high) (hhalf : isHighHalf high = true)
    (hlow : hexFour? e f g h = some low) (hhalf' : isLowHalf low = true) (hne : tail ≠ []) :
    stringBody opening position read
        ('\\' :: 'u' :: a :: b :: c :: d :: '\\' :: 'u' :: e :: f :: g :: h :: tail) =
      stringBody opening (position + 12) (joinHalves high low :: read) tail := by
  obtain ⟨i, tail, rfl⟩ := List.exists_cons_of_ne_nil hne
  rw [stringBody.eq_def]
  simp only [hhigh, hhalf, hlow, hhalf', if_true]

/-- A character is no half of a pair. -/
theorem isHighHalf_of_charOf? {code : Nat} {x : Char} (h : charOf? code = some x) :
    isHighHalf code = false := by
  unfold charOf? at h
  grind

/-- A number escape that is no half of a pair is read alone. -/
theorem stringBody_numbered {a b c d x : Char} {code : Nat} (hcode : hexFour? a b c d = some code)
    (hchar : charOf? code = some x) (hne : tail ≠ []) :
    stringBody opening position read ('\\' :: 'u' :: a :: b :: c :: d :: tail) =
      stringBody opening (position + 6) (x :: read) tail := by
  obtain ⟨e, tail, rfl⟩ := List.exists_cons_of_ne_nil hne
  have hhalf := isHighHalf_of_charOf? hchar
  rw [stringBody.eq_def]
  split <;> grind

end Steps

/-! ### Strings -/

/-- What spells a string is read, up to the closing quote. -/
theorem Spells.stringBody_eq {body cs : List Char} (h : Spells body cs) (opening position : Nat)
    (read rest : List Char) :
    ∃ position', stringBody opening position read (body ++ '"' :: rest) =
      .ok (String.ofList (read.reverse ++ cs), ⟨position', rest⟩) := by
  induction h generalizing position read with
  | nil => exact ⟨position + 1, by simp [stringBody]⟩
  | @plain x _ _ hquote hbackslash hcontrol _ ih =>
      obtain ⟨position', hrest⟩ := ih (position + 1) (x :: read)
      refine ⟨position', ?_⟩
      rw [List.cons_append, stringBody_plain hquote hbackslash hcontrol, hrest]
      simp
  | @short _ x _ _ hescape _ ih =>
      obtain ⟨position', hrest⟩ := ih (position + 2) (x :: read)
      refine ⟨position', ?_⟩
      rw [List.cons_append, List.cons_append, stringBody_short hescape, hrest]
      simp
  | @numbered _ _ _ _ x _ _ _ hcode hchar _ ih =>
      obtain ⟨position', hrest⟩ := ih (position + 6) (x :: read)
      refine ⟨position', ?_⟩
      simp only [List.cons_append]
      rw [stringBody_numbered hcode hchar (by simp), hrest]
      simp
  | @pair _ _ _ _ _ _ _ _ high low _ _ hhigh hhalf hlow hhalf' _ ih =>
      obtain ⟨position', hrest⟩ := ih (position + 12) (joinHalves high low :: read)
      refine ⟨position', ?_⟩
      simp only [List.cons_append]
      rw [stringBody_pair hhigh hhalf hlow hhalf' (by simp), hrest]
      simp

/-- One step of reading a string: it is closed, or some characters in front spell one character. -/
theorem stringBody_step {opening position : Nat} {read text : List Char} {name : String}
    {after : Cursor} (h : stringBody opening position read text = .ok (name, after)) :
    (text = '"' :: after.rest ∧ name = String.ofList read.reverse) ∨
      ∃ position' front text' x, text = front ++ text' ∧ front ≠ [] ∧
        stringBody opening position' (x :: read) text' = .ok (name, after) ∧
        ∀ body cs, Spells body cs → Spells (front ++ body) (x :: cs) := by
  rw [stringBody.eq_def] at h
  split at h
  · cases h
  · cases h
    exact .inl ⟨rfl, rfl⟩
  · cases h
  · rename_i a b c d e f g k i rest
    split at h
    · cases h
    · rename_i high hhigh
      split at h
      · rename_i hhalf
        split at h
        · cases h
        · rename_i low hlow
          split at h
          · rename_i hhalf'
            exact .inr ⟨_, ['\\', 'u', a, b, c, d, '\\', 'u', e, f, g, k], _, _, rfl, by simp, h,
              fun _ _ hcs => .pair hhigh hhalf hlow hhalf' hcs⟩
          · cases h
      · split at h
        · cases h
        · rename_i x hchar
          exact .inr ⟨_, ['\\', 'u', a, b, c, d], _, _, rfl, by simp, h,
            fun _ _ hcs => .numbered hhigh hchar hcs⟩
  · rename_i a b c d e rest _
    split at h
    · cases h
    · rename_i code hcode
      split at h
      · cases h
      · rename_i x hchar
        exact .inr ⟨_, ['\\', 'u', a, b, c, d], _, _, rfl, by simp, h,
          fun _ _ hcs => .numbered hcode hchar hcs⟩
  · cases h
  · rename_i letter rest _ _ _
    split at h
    · cases h
    · rename_i x hescape
      exact .inr ⟨_, ['\\', letter], _, _, rfl, by simp, h, fun _ _ hcs => .short hescape hcs⟩
  · rename_i x rest hquote hlast _ _ _ hletter
    split at h
    · cases h
    · rename_i hcontrol
      refine .inr ⟨_, [x], _, _, rfl, by simp, h,
        fun _ _ hcs => .plain hquote ?_ (Nat.not_lt.mp hcontrol) hcs⟩
      intro hx
      cases rest with
      | nil => exact hlast hx rfl
      | cons c rest => exact hletter c rest hx rfl

/-- **What is read as a string spells it.** -/
theorem exists_spells_of_stringBody {opening position : Nat} {read text : List Char} {name : String}
    {after : Cursor} (h : stringBody opening position read text = .ok (name, after)) :
    ∃ body cs, text = body ++ '"' :: after.rest ∧ Spells body cs ∧
      name = String.ofList (read.reverse ++ cs) := by
  -- One step takes up to twelve characters, so the induction is on their number.
  induction hlength : text.length using Nat.strongRecOn generalizing position read text with
  | _ n ih =>
      subst hlength
      obtain ⟨rfl, rfl⟩ | ⟨position', front, text', x, rfl, hfront, hrest, hspells⟩ :=
        stringBody_step h
      · exact ⟨[], [], rfl, .nil, by simp⟩
      · have hpos : 0 < front.length := List.length_pos_iff.mpr hfront
        obtain ⟨body, cs, hbody, hcs, hname⟩ :=
          ih text'.length (by rw [List.length_append]; omega) hrest rfl
        refine ⟨front ++ body, x :: cs, ?_, hspells body cs hcs, ?_⟩
        · rw [hbody, List.append_assoc]
        · rw [hname]
          simp

/-! ### Digits -/

/-- What may follow a number: no digit, no point and no mark of an exponent. -/
def Stops (rest : List Char) : Prop :=
  ∀ c ∈ rest.head?, c.isDigit = false ∧ c ≠ '.' ∧ c ≠ 'e' ∧ c ≠ 'E'

/-- No digit stands in front. -/
def NoDigit (rest : List Char) : Prop := ∀ c ∈ rest.head?, c.isDigit = false

theorem Stops.noDigit {rest : List Char} (h : Stops rest) : NoDigit rest := fun c hc => (h c hc).1

theorem leadingDigits_eq {digits rest : List Char} (hdigits : ∀ c ∈ digits, c.isDigit = true)
    (hrest : NoDigit rest) : leadingDigits (digits ++ rest) = digits := by
  rw [leadingDigits, List.takeWhile_append_of_pos hdigits]
  cases rest with
  | nil => simp
  | cons c rest => simp [hrest c rfl]

theorem exists_leadingDigits (cs : List Char) :
    (∃ rest, cs = leadingDigits cs ++ rest) ∧ ∀ c ∈ leadingDigits cs, c.isDigit = true :=
  ⟨⟨cs.dropWhile Char.isDigit, List.takeWhile_append_dropWhile.symm⟩,
    fun _ hc => List.mem_takeWhile_imp hc⟩

theorem IsWhole.ne_nil {whole : List Char} (h : IsWhole whole) : whole ≠ [] := by
  rcases h with rfl | ⟨h, -⟩
  · simp
  · exact h.1

theorem IsWhole.isDigit {whole : List Char} (h : IsWhole whole) :
    ∀ c ∈ whole, c.isDigit = true := by
  rcases h with rfl | ⟨h, -⟩
  · intro c hc
    rw [List.mem_singleton.mp hc]
    rfl
  · exact h.2

theorem wholeDigits_eq {whole rest : List Char} (h : IsWhole whole) (hrest : NoDigit rest) :
    wholeDigits (whole ++ rest) = whole := by
  rcases h with rfl | ⟨⟨hne, hdigits⟩, hzero⟩
  · rfl
  · rw [wholeDigits.eq_def]
    split
    · rename_i tail heq
      obtain ⟨c, whole, rfl⟩ := List.exists_cons_of_ne_nil hne
      simp_all
    · exact leadingDigits_eq hdigits hrest

theorem exists_isWhole {cs : List Char} (h : wholeDigits cs ≠ []) :
    IsWhole (wholeDigits cs) ∧ ∃ rest, cs = wholeDigits cs ++ rest := by
  rw [wholeDigits.eq_def] at h ⊢
  split at h
  · exact ⟨.inl rfl, _, rfl⟩
  · rename_i hzero
    obtain ⟨⟨rest, hrest⟩, hdigits⟩ := exists_leadingDigits cs
    refine ⟨.inr ⟨⟨h, hdigits⟩, ?_⟩, rest, hrest⟩
    intro hhead
    obtain ⟨tail, htail⟩ := List.head?_eq_some_iff.mp hhead
    rw [htail] at hrest
    exact hzero _ hrest

/-! ### Fractions and exponents -/

theorem fractionDigits_eq {text fraction rest : List Char} (h : FractionText text fraction)
    (hdigit : NoDigit rest) (hpoint : ∀ c ∈ rest.head?, c ≠ '.') :
    fractionDigits (text ++ rest) = fraction := by
  cases h with
  | none =>
      rw [fractionDigits.eq_def]
      split
      · rename_i tail heq
        subst heq
        exact absurd rfl (hpoint '.' rfl)
      · rfl
  | some hdigits => exact leadingDigits_eq hdigits.2 hdigit

theorem exists_fractionText (cs : List Char) :
    ∃ text rest, cs = text ++ rest ∧ FractionText text (fractionDigits cs) := by
  rw [fractionDigits.eq_def]
  split
  · rename_i tail
    obtain ⟨⟨rest, hrest⟩, hdigits⟩ := exists_leadingDigits tail
    cases hlead : leadingDigits tail with
    | nil => exact ⟨[], _, rfl, .none⟩
    | cons d digits =>
        rw [hlead] at hrest hdigits
        exact ⟨'.' :: d :: digits, rest, by rw [hrest]; rfl, .some ⟨by simp, hdigits⟩⟩
  · exact ⟨[], cs, rfl, .none⟩

/-- An exponent with its sign. -/
theorem exponentPart_eq {mark : Char} {signText digits rest : List Char} {sign : Int}
    (hmark : mark = 'e' ∨ mark = 'E') (hsign : SignText signText sign) (hdigits : IsDigits digits)
    (hrest : NoDigit rest) :
    exponentPart (mark :: (signText ++ digits) ++ rest) =
      some (sign * Text.ofDecimalDigits digits, (mark :: (signText ++ digits)).length) := by
  have hlead := leadingDigits_eq hdigits.2 hrest
  obtain ⟨d, digits, rfl⟩ := List.exists_cons_of_ne_nil hdigits.1
  have hd : d.isDigit = true := hdigits.2 d (by simp)
  have hmarked : (mark == 'e' || mark == 'E') = true := by simpa using hmark
  cases hsign with
  | none =>
      have hplus : d ≠ '+' := by
        rintro rfl
        cases hd
      have hminus : d ≠ '-' := by
        rintro rfl
        cases hd
      simp only [List.nil_append, List.cons_append] at hlead ⊢
      simp only [exponentPart, hmarked, if_true]
      split
      · simp_all
      · simp_all
      · rw [hlead]
        simp [Nat.add_comm]
  | plus =>
      simp only [List.cons_append, List.nil_append] at hlead ⊢
      simp only [exponentPart, hmarked, if_true, hlead, List.length_cons, Option.some.injEq,
        Prod.mk.injEq, true_and]
      omega
  | minus =>
      simp only [List.cons_append, List.nil_append] at hlead ⊢
      simp only [exponentPart, hmarked, if_true, hlead, List.length_cons, Option.some.injEq,
        Prod.mk.injEq, true_and]
      omega

theorem exponentPart_eq_none {rest : List Char} (h : Stops rest) : exponentPart rest = none := by
  cases rest with
  | nil => rfl
  | cons c rest =>
      obtain ⟨-, -, he, hE⟩ := h c rfl
      simp [exponentPart, he, hE]

/-- A mark, a sign and the digits behind it are the text of an exponent. -/
theorem exists_exponentText_of_digits {mark : Char} {signText tail : List Char} {sign : Int}
    (hmark : mark = 'e' ∨ mark = 'E') (hsign : SignText signText sign)
    (hne : leadingDigits tail ≠ []) :
    ∃ text rest, mark :: (signText ++ tail) = text ++ rest ∧
      ExponentText text (some (sign * Text.ofDecimalDigits (leadingDigits tail))) ∧
      1 + signText.length + (leadingDigits tail).length = text.length := by
  obtain ⟨⟨rest, hrest⟩, hdigits⟩ := exists_leadingDigits tail
  refine ⟨mark :: (signText ++ leadingDigits tail), rest, ?_,
    .some hmark hsign ⟨hne, hdigits⟩, ?_⟩
  · rw [List.cons_append, List.append_assoc, ← hrest]
  · rw [List.length_cons, List.length_append]
    omega

/-- What is read as an exponent is the text of one. -/
theorem exists_exponentText {cs : List Char} {exponent : Int} {width : Nat}
    (h : exponentPart cs = some (exponent, width)) :
    ∃ text rest, cs = text ++ rest ∧ ExponentText text (some exponent) ∧ width = text.length := by
  cases cs with
  | nil => cases h
  | cons mark tail =>
      simp only [exponentPart] at h
      split at h
      · rename_i hmark
        have hmark : mark = 'e' ∨ mark = 'E' := by simpa using hmark
        split at h
        · split at h
          · cases h
          · rename_i hne
            cases h
            exact exists_exponentText_of_digits hmark .minus hne
        · split at h
          · cases h
          · rename_i hne
            cases h
            exact exists_exponentText_of_digits hmark .plus hne
        · split at h
          · cases h
          · rename_i hne
            cases h
            exact @exists_exponentText_of_digits _ [] tail _ hmark .none hne
      · cases h

/-! ### Numbers -/

theorem length_minusText (negative : Bool) :
    (minusText negative).length = if negative then 1 else 0 := by
  cases negative <;> rfl

theorem FractionText.width_eq {text fraction : List Char} (h : FractionText text fraction) :
    (if fraction.isEmpty then 0 else fraction.length + 1) = text.length := by
  cases h with
  | none => rfl
  | some hdigits =>
      obtain ⟨d, digits, rfl⟩ := List.exists_cons_of_ne_nil hdigits.1
      rfl

/-- Neither an exponent nor what follows a number begins with a digit or a point. -/
theorem ExponentText.head?_append {text rest : List Char} {exponent : Option Int}
    (h : ExponentText text exponent) (hrest : Stops rest) :
    ∀ c ∈ (text ++ rest).head?, c.isDigit = false ∧ c ≠ '.' := by
  cases h with
  | none => exact fun c hc => ⟨(hrest c hc).1, (hrest c hc).2.1⟩
  | some hmark => rcases hmark with rfl | rfl <;> simp

theorem FractionText.noDigit_append {text fraction rest : List Char}
    (h : FractionText text fraction) (hrest : NoDigit rest) : NoDigit (text ++ rest) := by
  cases h with
  | none => exact hrest
  | some => simp [NoDigit]

theorem ExponentText.exponentPart_eq {text rest : List Char} {exponent : Option Int}
    (h : ExponentText text exponent) (hrest : Stops rest) :
    exponentPart (text ++ rest) = exponent.map fun e => (e, text.length) := by
  cases h with
  | none => exact exponentPart_eq_none hrest
  | some hmark hsign hdigits => exact Json.exponentPart_eq hmark hsign hdigits hrest.noDigit

/-- The text of a number is read as far as it goes. -/
theorem NumberText.numeral?_eq {text rest : List Char} {n : Numeral} (h : NumberText text n)
    (hrest : Stops rest) : numeral? (text ++ rest) = some n := by
  cases h with
  | @mk negative whole fractionText fraction exponentText exponent hwhole hfraction hexponent =>
      have hhead := hexponent.head?_append hrest
      have hnoDigit : NoDigit (exponentText ++ rest) := fun c hc => (hhead c hc).1
      have hdigits := wholeDigits_eq hwhole (hfraction.noDigit_append hnoDigit)
      have hpoint := fractionDigits_eq hfraction hnoDigit fun c hc => (hhead c hc).2
      have hmark := hexponent.exponentPart_eq hrest
      obtain ⟨d, whole, rfl⟩ := List.exists_cons_of_ne_nil hwhole.ne_nil
      have hsign : ((minusText negative ++ (d :: whole ++ (fractionText ++ exponentText)) ++
          rest).head? == some '-') = negative := by
        cases negative with
        | true => rfl
        | false =>
            have hd : d ≠ '-' := by
              rintro rfl
              exact absurd (hwhole.isDigit '-' (by simp)) (by decide)
            simpa [minusText] using hd
      have hsplit : minusText negative ++ (d :: whole ++ (fractionText ++ exponentText)) ++ rest =
          minusText negative ++ (d :: whole ++ (fractionText ++ (exponentText ++ rest))) := by
        simp
      simp only [numeral?, hsign, ← length_minusText]
      rw [hsplit, List.drop_left, hdigits]
      simp only [List.drop_left, hpoint, hfraction.width_eq, hmark]
      cases hexponent with
      | none =>
          simp
          omega
      | some =>
          simp
          omega

/-- **What is read as a number is the text of one.** -/
theorem exists_numberText {cs : List Char} {n : Numeral} (h : numeral? cs = some n) :
    ∃ text rest, cs = text ++ rest ∧ NumberText text n ∧ n.width = text.length := by
  obtain ⟨negative, unsigned, hnegative, rfl⟩ :
      ∃ negative unsigned, (cs.head? == some '-') = negative ∧
        cs = minusText negative ++ unsigned := by
    by_cases hminus : cs.head? = some '-'
    · obtain ⟨tail, rfl⟩ := List.head?_eq_some_iff.mp hminus
      exact ⟨true, tail, rfl, rfl⟩
    · exact ⟨false, cs, by simpa using hminus, rfl⟩
  simp only [numeral?, hnegative, ← length_minusText, List.drop_left] at h
  split at h
  · cases h
  · rename_i hne
    obtain ⟨hwhole, rest, hrest⟩ := exists_isWhole hne
    generalize wholeDigits unsigned = whole at h hwhole hrest
    subst hrest
    rw [List.drop_left] at h
    obtain ⟨fractionText, rest', hrest', hfraction⟩ := exists_fractionText rest
    rw [hfraction.width_eq] at h
    generalize fractionDigits rest = fraction at h hfraction
    subst hrest'
    rw [List.drop_left] at h
    split at h
    · have hwidth : (minusText negative).length + whole.length + fractionText.length =
          (minusText negative ++ (whole ++ (fractionText ++ []))).length := by
        simp
        omega
      rw [hwidth] at h
      cases h
      exact ⟨_, rest', by simp, .mk hwhole hfraction .none, rfl⟩
    · rename_i exponent width hmark
      obtain ⟨exponentText, rest, rfl, hexponent, rfl⟩ := exists_exponentText hmark
      have hwidth : (minusText negative).length + whole.length + fractionText.length +
          exponentText.length =
          (minusText negative ++ (whole ++ (fractionText ++ exponentText))).length := by
        simp
        omega
      rw [hwidth] at h
      cases h
      exact ⟨_, rest, by simp, .mk hwhole hfraction hexponent, rfl⟩

end LineLint.Json
