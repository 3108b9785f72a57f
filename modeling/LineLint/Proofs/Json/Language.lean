/-
**Reading JSON is reading its grammar.**

The reader takes a text if and only if the grammar gives it a value, and then gives that value.
That what is read follows the grammar is shown by induction on the fuel, for values, elements and
members at once; that every text of the grammar is read is shown by induction on its derivation, in
the middle of a text and with at least as much fuel as there are characters.

Main definitions:

* `LineLint.Json.Sound` — what is read with some fuel follows the grammar;
* `LineLint.Json.Begins` — what the text of a value may begin with;
* `LineLint.Json.IsRead` — a text is read from the middle of another one.

Main results:

* `LineLint.Json.sound` — with any fuel, what is read follows the grammar;
* `LineLint.Json.Denotes.isRead` — every text of the grammar is read;
* `LineLint.Json.parse_eq_ok_iff` — **the texts that are read, and their values**.
-/

import LineLint.Proofs.Fallible
import LineLint.Proofs.Json.Lexemes

set_option relaxedAutoImplicit false
set_option autoImplicit false

namespace LineLint.Json

/-! ### What is read follows the grammar -/

theorem exists_skipGap (cursor : Cursor) :
    ∃ gap, IsBlank gap ∧ cursor.rest = gap ++ cursor.skipGap.rest := by
  refine ⟨cursor.rest.takeWhile isGap, fun c hc => List.mem_takeWhile_imp hc, ?_⟩
  rw [Cursor.skipGap, Cursor.skip]
  exact (List.prefix_iff_eq_append.mp (List.takeWhile_prefix _)).symm

theorem rest_skip {cursor : Cursor} {text rest : List Char} (h : cursor.rest = text ++ rest) :
    (cursor.skip text.length).rest = rest := by
  rw [Cursor.skip, h, List.drop_left]

theorem rest_skip_one {cursor : Cursor} {c : Char} {rest : List Char}
    (h : cursor.rest = c :: rest) : (cursor.skip 1).rest = rest :=
  @rest_skip cursor [c] rest h

theorem exists_spells_of_string {cursor after : Cursor} {name : String}
    (h : cursor.string = .ok (name, after)) :
    ∃ body cs, cursor.rest = body ++ '"' :: after.rest ∧ Spells body cs ∧ name = String.ofList cs :=
  exists_spells_of_stringBody h

/-- No limit is broken by the numbers within the limits, and by no others. -/
theorem broken?_eq_none_iff {limits : Limits} {n : Numeral} :
    n.broken? limits = none ↔ n.Within limits := by
  simp [Numeral.broken?, Numeral.Within, Limits.broken?, Option.filter_eq_none_iff]

/-- What is read as a word or a number is one. -/
theorem exists_denotes_of_scalar {limits : Limits} {cursor after : Cursor} {v : Value}
    (h : scalar limits cursor = .ok (v, after)) :
    ∃ text, cursor.rest = text ++ after.rest ∧ Denotes limits text (.value v) := by
  unfold scalar at h
  split at h
  · rename_i word v hfind
    cases h
    have hfront := List.find?_some hfind
    obtain ⟨rest, hrest⟩ := List.isPrefixOf_iff_prefix.mp hfront
    refine ⟨word, ?_, .word (List.mem_of_find?_eq_some hfind)⟩
    rw [rest_skip hrest.symm, hrest]
  · split at h
    · cases h
    · rename_i n hnumeral
      split at h
      · cases h
      · rename_i hbroken
        cases h
        obtain ⟨text, rest, hrest, htext, hwidth⟩ := exists_numberText hnumeral
        refine ⟨text, ?_, .number htext (broken?_eq_none_iff.mp hbroken)⟩
        rw [hwidth, rest_skip hrest, hrest]

/-- With some fuel, what is read follows the grammar. -/
structure Sound (fuel : Nat) : Prop where
  value : ∀ {limits : Limits} {cursor after : Cursor} {v : Value},
    Json.value limits fuel cursor = .ok (v, after) →
      ∃ text, cursor.rest = text ++ after.rest ∧ Denotes limits text (.value v)
  elements : ∀ {limits : Limits} {cursor after : Cursor} {values : List Value},
    Json.elements limits fuel cursor = .ok (values, after) →
      ∃ text, cursor.rest = text ++ ']' :: after.rest ∧ Denotes limits text (.items values)
  members : ∀ {limits : Limits} {cursor after : Cursor} {read result : List (String × Value)},
    Json.members limits fuel read cursor = .ok (result, after) →
      ∃ text written, cursor.rest = text ++ '\x7d' :: after.rest ∧
        Denotes limits text (.members written) ∧ result = collect read written

section Sound

variable {limits : Limits} {fuel : Nat} {cursor after : Cursor}

theorem Sound.elements_succ (ih : Sound fuel) {values : List Value}
    (h : Json.elements limits (fuel + 1) cursor = .ok (values, after)) :
    ∃ text, cursor.rest = text ++ ']' :: after.rest ∧ Denotes limits text (.items values) := by
  rw [Json.elements] at h
  obtain ⟨⟨first, next⟩, hfirst, h⟩ := exists_of_bind_eq_ok h
  obtain ⟨text, htext, hdenotes⟩ := ih.value hfirst
  obtain ⟨gap, hgap, hnext⟩ := exists_skipGap next
  rw [hnext] at htext
  dsimp only at h
  split at h
  · rename_i hclose
    cases h
    refine ⟨[] ++ (text ++ gap), ?_, .lastItem isBlank_nil hgap hdenotes⟩
    rw [rest_skip_one hclose, htext, hclose]
    simp
  · rename_i hcomma
    obtain ⟨⟨others, last⟩, hothers, h⟩ := exists_of_bind_eq_ok h
    cases h
    obtain ⟨rest, hrest, hitems⟩ := ih.elements hothers
    obtain ⟨gap', hgap', hinner⟩ := exists_skipGap (next.skipGap.skip 1)
    rw [rest_skip_one hcomma, hrest] at hinner
    refine ⟨[] ++ (text ++ (gap ++ ',' :: (gap' ++ rest))), ?_,
      .item isBlank_nil hgap hdenotes (hitems.items_gap hgap')⟩
    rw [htext, hcomma, hinner]
    simp
  · cases h

theorem Sound.members_succ (ih : Sound fuel) {read result : List (String × Value)}
    (h : Json.members limits (fuel + 1) read cursor = .ok (result, after)) :
    ∃ text written, cursor.rest = text ++ '\x7d' :: after.rest ∧
      Denotes limits text (.members written) ∧ result = collect read written := by
  rw [Json.members] at h
  split at h
  · rename_i tail hquote
    obtain ⟨⟨name, afterName⟩, hname, h⟩ := exists_of_bind_eq_ok h
    obtain ⟨body, cs, hbody, hspells, rfl⟩ := exists_spells_of_string hname
    obtain ⟨before, hbefore, hcolonGap⟩ := exists_skipGap afterName
    dsimp only at h
    split at h
    · rename_i hcolon
      obtain ⟨⟨item, next⟩, hitem, h⟩ := exists_of_bind_eq_ok h
      obtain ⟨text, htext, hdenotes⟩ := ih.value hitem
      obtain ⟨behind, hbehind, hvalueGap⟩ := exists_skipGap (afterName.skipGap.skip 1)
      obtain ⟨gap, hgap, hnext⟩ := exists_skipGap next
      have hmember : Denotes limits ('"' :: (body ++ '"' :: (before ++ ':' :: (behind ++ text))))
          (.member (String.ofList cs, item)) := .member hspells hbefore hbehind hdenotes
      have hcursor : cursor.rest = '"' :: (body ++ '"' :: (before ++ ':' :: (behind ++ text))) ++
          (gap ++ next.skipGap.rest) := by
        rw [rest_skip_one hcolon, htext, hnext] at hvalueGap
        rw [rest_skip_one hquote, hcolonGap, hcolon, hvalueGap] at hbody
        rw [hquote, hbody]
        simp
      dsimp only at h
      split at h
      · rename_i hclose
        cases h
        refine ⟨_, _, ?_, .lastMember isBlank_nil hgap hmember, rfl⟩
        rw [hcursor, rest_skip_one hclose, hclose]
        simp
      · rename_i hcomma
        obtain ⟨rest, written, hrest, hwritten, rfl⟩ := ih.members h
        obtain ⟨gap', hgap', hinner⟩ := exists_skipGap (next.skipGap.skip 1)
        rw [rest_skip_one hcomma, hrest] at hinner
        refine ⟨_, _, ?_, .members isBlank_nil hgap hmember (hwritten.members_gap hgap'), rfl⟩
        rw [hcursor, hcomma, hinner]
        simp
      · cases h
    · cases h
  · cases h

theorem Sound.value_succ (ih : Sound fuel) {v : Value}
    (h : Json.value limits (fuel + 1) cursor = .ok (v, after)) :
    ∃ text, cursor.rest = text ++ after.rest ∧ Denotes limits text (.value v) := by
  rw [Json.value] at h
  obtain ⟨gap, hgap, hinner⟩ := exists_skipGap (cursor.skip 1)
  split at h
  · rename_i hquote
    obtain ⟨⟨name, next⟩, hname, h⟩ := exists_of_bind_eq_ok h
    cases h
    obtain ⟨body, cs, hbody, hspells, rfl⟩ := exists_spells_of_string hname
    refine ⟨_, ?_, .string hspells⟩
    rw [rest_skip_one hquote] at hbody
    rw [hquote, hbody]
    simp
  · rename_i hopen
    rw [rest_skip_one hopen] at hinner
    split at h
    · cases h
    · rename_i inside hinside
      dsimp only at h
      split at h
      · rename_i hclose
        cases h
        refine ⟨_, ?_, .noItems hinside hgap⟩
        rw [rest_skip_one hclose, hopen, hinner, hclose]
        simp
      · obtain ⟨⟨values, next⟩, hvalues, h⟩ := exists_of_bind_eq_ok h
        cases h
        obtain ⟨text, htext, hitems⟩ := ih.elements hvalues
        refine ⟨_, ?_, .array hinside (hitems.items_gap hgap)⟩
        rw [hopen, hinner, htext]
        simp
  · rename_i hopen
    rw [rest_skip_one hopen] at hinner
    split at h
    · cases h
    · rename_i inside hinside
      dsimp only at h
      split at h
      · rename_i hclose
        cases h
        refine ⟨_, ?_, .noMembers hinside hgap⟩
        rw [rest_skip_one hclose, hopen, hinner, hclose]
        simp
      · obtain ⟨⟨result, next⟩, hmembers, h⟩ := exists_of_bind_eq_ok h
        cases h
        obtain ⟨text, written, htext, hwritten, rfl⟩ := ih.members hmembers
        refine ⟨_, ?_, .object hinside (hwritten.members_gap hgap)⟩
        rw [hopen, hinner, htext]
        simp
  · exact exists_denotes_of_scalar h

/-- With any fuel, what is read follows the grammar. -/
theorem sound (fuel : Nat) : Sound fuel := by
  induction fuel with
  | zero => constructor <;> intros <;> contradiction
  | succ fuel ih => exact ⟨ih.value_succ, ih.elements_succ, ih.members_succ⟩

end Sound

/-! ### Blanks and what follows a value -/

theorem skipGap_append {gap : List Char} {c : Char} (hgap : IsBlank gap) (hc : isGap c = false)
    (position : Nat) (rest : List Char) :
    Cursor.skipGap ⟨position, gap ++ c :: rest⟩ = ⟨position + gap.length, c :: rest⟩ := by
  have htake : (gap ++ c :: rest).takeWhile isGap = gap := by
    rw [List.takeWhile_append_of_pos hgap]
    simp [hc]
  rw [Cursor.skipGap, Cursor.skip, htake, List.drop_left]

theorem skipGap_blank {gap : List Char} (hgap : IsBlank gap) (position : Nat) :
    (Cursor.skipGap ⟨position, gap⟩).rest = [] := by
  have htake : gap.takeWhile isGap = gap := List.takeWhile_eq_self_iff.mpr hgap
  rw [Cursor.skipGap, Cursor.skip, htake, List.drop_length]

theorem stops_nil : Stops [] := by
  rintro _ ⟨⟩

theorem stops_cons {c : Char} (h : c.isDigit = false ∧ c ≠ '.' ∧ c ≠ 'e' ∧ c ≠ 'E')
    (rest : List Char) : Stops (c :: rest) := by
  rintro _ ⟨⟩
  exact h

/-- Blanks stop a number. -/
theorem Stops.gap_append {gap rest : List Char} (hgap : IsBlank gap) (hrest : Stops rest) :
    Stops (gap ++ rest) := by
  cases gap with
  | nil => exact hrest
  | cons c gap =>
      have hc := hgap c List.mem_cons_self
      simp only [isGap, Bool.or_eq_true, beq_iff_eq] at hc
      obtain ((rfl | rfl) | rfl) | rfl := hc <;> exact stops_cons (by decide) (gap ++ rest)

theorem stops_blank {gap : List Char} (hgap : IsBlank gap) : Stops gap := by
  rw [← List.append_nil gap]
  exact stops_nil.gap_append hgap

/-! ### One step of the reader -/

section Steps

variable {limits inside : Limits} {fuel position : Nat} {cursor after last : Cursor}
  {item : Value} {items : List Value}
  {read result : List (String × Value)} {name : String} {rest : List Char}

theorem elements_of_close (hvalue : value limits fuel cursor = .ok (item, after))
    (hgap : after.skipGap = ⟨position, ']' :: rest⟩) :
    elements limits (fuel + 1) cursor = .ok ([item], ⟨position + 1, rest⟩) := by
  rw [elements, hvalue]
  simp only [bind, Except.bind, hgap]
  rfl

theorem elements_of_comma (hvalue : value limits fuel cursor = .ok (item, after))
    (hgap : after.skipGap = ⟨position, ',' :: rest⟩)
    (hitems : elements limits fuel (Cursor.skipGap ⟨position + 1, rest⟩) = .ok (items, last)) :
    elements limits (fuel + 1) cursor = .ok (item :: items, last) := by
  rw [elements, hvalue]
  simp only [bind, Except.bind, hgap, Cursor.skip, List.drop_succ_cons, List.drop_zero, hitems]
  rfl

theorem value_of_elements {inner : Nat} {c : Char} {tail : List Char}
    (hinside : limits.inside? = some inside)
    (hgap : Cursor.skipGap ⟨position + 1, rest⟩ = ⟨inner, c :: tail⟩) (hc : c ≠ ']')
    (hitems : elements inside fuel ⟨inner, c :: tail⟩ = .ok (items, last)) :
    value limits (fuel + 1) ⟨position, '[' :: rest⟩ = .ok (.array items, last) := by
  rw [value]
  simp only [hinside, Cursor.skip, List.drop_succ_cons, List.drop_zero, hgap]
  split
  · next h => exact absurd (List.cons.inj h).1 hc
  · rw [hitems]
    rfl

theorem members_of_close {colon close : Nat} {afterColon tail : List Char} {afterName : Cursor}
    (hname : Cursor.string ⟨position + 1, rest⟩ = .ok (name, afterName))
    (hcolon : afterName.skipGap = ⟨colon, ':' :: afterColon⟩)
    (hvalue : value limits fuel (Cursor.skipGap ⟨colon + 1, afterColon⟩) = .ok (item, after))
    (hgap : after.skipGap = ⟨close, '\x7d' :: tail⟩) :
    members limits (fuel + 1) read ⟨position, '"' :: rest⟩ =
      .ok (put name item read, ⟨close + 1, tail⟩) := by
  rw [members]
  simp only [bind, Except.bind, Cursor.skip, List.drop_succ_cons, List.drop_zero, hname, hcolon,
    hvalue, hgap]
  rfl

theorem members_of_comma {colon comma : Nat} {afterColon tail : List Char} {afterName : Cursor}
    (hname : Cursor.string ⟨position + 1, rest⟩ = .ok (name, afterName))
    (hcolon : afterName.skipGap = ⟨colon, ':' :: afterColon⟩)
    (hvalue : value limits fuel (Cursor.skipGap ⟨colon + 1, afterColon⟩) = .ok (item, after))
    (hgap : after.skipGap = ⟨comma, ',' :: tail⟩) :
    members limits (fuel + 1) read ⟨position, '"' :: rest⟩ =
      members limits fuel (put name item read) (Cursor.skipGap ⟨comma + 1, tail⟩) := by
  rw [members]
  simp only [bind, Except.bind, Cursor.skip, List.drop_succ_cons, List.drop_zero, hname, hcolon,
    hvalue, hgap]

theorem value_of_members {inner : Nat} {tail : List Char}
    (hinside : limits.inside? = some inside)
    (hgap : Cursor.skipGap ⟨position + 1, rest⟩ = ⟨inner, '"' :: tail⟩)
    (hmembers : members inside fuel [] ⟨inner, '"' :: tail⟩ = .ok (result, last)) :
    value limits (fuel + 1) ⟨position, '\x7b' :: rest⟩ = .ok (.object result, last) := by
  rw [value]
  simp only [hinside, Cursor.skip, List.drop_succ_cons, List.drop_zero, hgap, hmembers]
  rfl

/-- What begins neither a string, an array nor an object is a word or a number. -/
theorem value_eq_scalar {c : Char} (hc : c ≠ '"' ∧ c ≠ '[' ∧ c ≠ '\x7b') :
    value limits (fuel + 1) ⟨position, c :: rest⟩ = scalar limits ⟨position, c :: rest⟩ := by
  rw [value]
  split <;> grind

end Steps

/-! ### Every text of the grammar is read -/

/-- What the text of a value may begin with: neither a blank, nor the bracket that would close an
empty array, nor a byte order mark. -/
def Begins (c : Char) : Prop := isGap c = false ∧ c ≠ ']' ∧ c ≠ Char.ofNat 0xfeff

instance : DecidablePred Begins := fun c =>
  inferInstanceAs (Decidable (isGap c = false ∧ c ≠ ']' ∧ c ≠ Char.ofNat 0xfeff))

/-- A text is read from the middle of another one, with at least as much fuel as it has characters,
and reading stops at its end. -/
def IsRead (limits : Limits) (text : List Char) : Phrase → Prop
  | .value v =>
    (∃ c tail, text = c :: tail ∧ Begins c) ∧
      ∀ fuel position rest, text.length ≤ fuel → Stops rest →
        ∃ last, value limits fuel ⟨position, text ++ rest⟩ = .ok (v, ⟨last, rest⟩)
  | .items values =>
    ∀ fuel position rest, text.length < fuel →
      ∃ inner c tail last, Cursor.skipGap ⟨position, text ++ ']' :: rest⟩ = ⟨inner, c :: tail⟩ ∧
        c ≠ ']' ∧ elements limits fuel ⟨inner, c :: tail⟩ = .ok (values, ⟨last, rest⟩)
  | .member member =>
    ∃ tail, text = '"' :: tail ∧ ∀ fuel position rest, text.length ≤ fuel → Stops rest →
      ∃ afterName colon afterColon last,
        Cursor.string ⟨position, tail ++ rest⟩ = .ok (member.1, afterName) ∧
        afterName.skipGap = ⟨colon, ':' :: afterColon⟩ ∧
        value limits fuel (Cursor.skipGap ⟨colon + 1, afterColon⟩) = .ok (member.2, ⟨last, rest⟩)
  | .members written =>
    ∀ read fuel position rest, text.length < fuel →
      ∃ inner tail last,
        Cursor.skipGap ⟨position, text ++ '\x7d' :: rest⟩ = ⟨inner, '"' :: tail⟩ ∧
        members limits fuel read ⟨inner, '"' :: tail⟩ = .ok (collect read written, ⟨last, rest⟩)

variable {limits inside : Limits}

/-- A value whose text has a first character has fuel for one step. -/
theorem isRead_value {text tail : List Char} {c : Char} {v : Value} (htext : text = c :: tail)
    (hc : Begins c)
    (h : ∀ fuel position rest, text.length ≤ fuel + 1 → Stops rest →
      ∃ last, value limits (fuel + 1) ⟨position, text ++ rest⟩ = .ok (v, ⟨last, rest⟩)) :
    IsRead limits text (.value v) := by
  refine ⟨⟨c, tail, htext, hc⟩, fun fuel position rest hfuel hrest => ?_⟩
  cases fuel with
  | zero => simp [htext] at hfuel
  | succ fuel => exact h fuel position rest hfuel hrest

theorem isRead_word {text : List Char} {v : Value} (h : (text, v) ∈ words) :
    IsRead limits text (.value v) := by
  simp only [words, List.mem_cons, Prod.mk.injEq, List.not_mem_nil, or_false] at h
  obtain ⟨rfl, rfl⟩ | ⟨rfl, rfl⟩ | ⟨rfl, rfl⟩ | ⟨rfl, rfl⟩ | ⟨rfl, rfl⟩ | ⟨rfl, rfl⟩ := h
  all_goals exact isRead_value rfl (by decide) fun _ _ _ _ _ => ⟨_, rfl⟩

theorem ne_of_isDigit {c x : Char} (hc : c.isDigit = true) (hx : x.isDigit = false) : c ≠ x := by
  rintro rfl
  rw [hc] at hx
  cases hx

/-- A number begins with a digit, or with a minus sign and a digit. -/
theorem NumberText.exists_digit {text : List Char} {n : Numeral} (h : NumberText text n) :
    ∃ d tail, d.isDigit = true ∧ (text = d :: tail ∨ text = '-' :: d :: tail) := by
  cases h with
  | @mk negative whole _ _ _ _ hwhole =>
      obtain ⟨d, tail, rfl⟩ := List.exists_cons_of_ne_nil hwhole.ne_nil
      have hd : d.isDigit = true := hwhole.isDigit d List.mem_cons_self
      cases negative with
      | false => exact ⟨d, _, hd, .inl rfl⟩
      | true => exact ⟨d, _, hd, .inr rfl⟩

/-- No word begins with a digit, or with a minus sign and a digit. -/
theorem find?_words_eq_none {cs tail : List Char} {c : Char} (hc : c.isDigit = true)
    (hcs : cs = c :: tail ∨ cs = '-' :: c :: tail) :
    words.find? (fun word => word.1.isPrefixOf cs) = none := by
  have hne : ∀ x : Char, x.isDigit = false → ¬x = c := fun x hx => (ne_of_isDigit hc hx).symm
  rcases hcs with rfl | rfl
  · simp [words, List.isPrefixOf, hne 'n' rfl, hne 't' rfl, hne 'f' rfl, hne 'N' rfl, hne 'I' rfl,
      hne '-' rfl]
  · simp [words, List.isPrefixOf, hne 'I' rfl]

theorem begins_of_isDigit {c : Char} (hc : c.isDigit = true) :
    Begins c ∧ c ≠ '"' ∧ c ≠ '[' ∧ c ≠ '\x7b' := by
  have hne : ∀ x : Char, x.isDigit = false → c ≠ x := fun x hx => ne_of_isDigit hc hx
  have hgap : isGap c = false := by
    simp [isGap, hne ' ' rfl, hne '\t' rfl, hne '\n' rfl, hne '\r' rfl]
  exact ⟨⟨hgap, hne _ rfl, hne _ rfl⟩, hne _ rfl, hne _ rfl, hne _ rfl⟩

theorem NumberText.isRead {text : List Char} {n : Numeral} (h : NumberText text n)
    (hwithin : n.Within limits) : IsRead limits text (.value n.value) := by
  obtain ⟨d, tail, hd, htext⟩ := h.exists_digit
  obtain ⟨c, tail', hcons, hbegins, hopen⟩ : ∃ c tail', text = c :: tail' ∧ Begins c ∧
      c ≠ '"' ∧ c ≠ '[' ∧ c ≠ '\x7b' := by
    rcases htext with rfl | rfl
    · exact ⟨d, _, rfl, begins_of_isDigit hd⟩
    · exact ⟨'-', _, rfl, by decide⟩
  refine isRead_value hcons hbegins fun fuel position rest _ hrest => ?_
  have hwords : words.find? (fun word => word.1.isPrefixOf (text ++ rest)) = none := by
    rcases htext with rfl | rfl
    · exact find?_words_eq_none hd (.inl rfl)
    · exact find?_words_eq_none hd (.inr rfl)
  have hwidth : n.width = text.length := by
    cases h
    rfl
  refine ⟨position + n.width, ?_⟩
  rw [hcons, List.cons_append, value_eq_scalar hopen, ← List.cons_append, ← hcons]
  simp only [scalar, hwords, h.numeral?_eq hrest, broken?_eq_none_iff.mpr hwithin]
  rw [Cursor.skip, hwidth, List.drop_left]

theorem Spells.string_eq {body cs : List Char} (h : Spells body cs) (position : Nat)
    (rest : List Char) :
    ∃ last, Cursor.string ⟨position, body ++ '"' :: rest⟩ = .ok (String.ofList cs, ⟨last, rest⟩) :=
  h.stringBody_eq (position - 1) position [] rest

theorem Spells.isRead {body cs : List Char} (h : Spells body cs) :
    IsRead limits ('"' :: (body ++ ['"'])) (.value (.string (String.ofList cs))) := by
  refine isRead_value rfl (by decide) fun fuel position rest _ _ => ?_
  obtain ⟨last, hstring⟩ := h.string_eq (position + 1) rest
  refine ⟨last, ?_⟩
  rw [List.cons_append, List.append_assoc, List.singleton_append, value]
  simp only [Cursor.skip, List.drop_succ_cons, List.drop_zero, hstring]
  rfl

/-! ### Arrays -/

theorem isRead_noItems (hinside : limits.inside? = some inside) {gap : List Char}
    (hgap : IsBlank gap) :
    IsRead limits ('[' :: (gap ++ [']'])) (.value (.array [])) := by
  refine isRead_value rfl (by decide) fun fuel position rest _ _ => ?_
  refine ⟨position + 1 + gap.length + 1, ?_⟩
  rw [List.cons_append, List.append_assoc, List.singleton_append, value]
  simp only [hinside, Cursor.skip, List.drop_succ_cons, List.drop_zero,
    skipGap_append hgap (c := ']') rfl]

theorem isRead_array (hinside : limits.inside? = some inside) {inner : List Char}
    {values : List Value} (h : IsRead inside inner (.items values)) :
    IsRead limits ('[' :: (inner ++ [']'])) (.value (.array values)) := by
  refine isRead_value rfl (by decide) fun fuel position rest hfuel _ => ?_
  have hlength : inner.length < fuel := by
    simp only [List.length_cons, List.length_append, List.length_nil] at hfuel
    omega
  obtain ⟨front, c, tail, last, hgap, hc, hitems⟩ := h fuel (position + 1) rest hlength
  refine ⟨last, ?_⟩
  rw [List.cons_append, List.append_assoc, List.singleton_append]
  exact value_of_elements hinside hgap hc hitems

section Items

variable {before text after rest : List Char} {v : Value} {values : List Value}

theorem isRead_lastItem (hbefore : IsBlank before) (hafter : IsBlank after)
    (h : IsRead limits text (.value v)) :
    IsRead limits (before ++ (text ++ after)) (.items [v]) := by
  intro fuel position rest hfuel
  obtain ⟨⟨c, tail, rfl, hgap, hc, -⟩, hvalue⟩ := h
  obtain ⟨fuel, rfl⟩ : ∃ n, fuel = n + 1 := Nat.exists_eq_succ_of_ne_zero (by omega)
  simp only [List.length_append, List.length_cons] at hfuel
  obtain ⟨next, hvalue⟩ := hvalue fuel (position + before.length) (after ++ ']' :: rest)
    (by rw [List.length_cons]; omega) ((stops_cons (by decide) rest).gap_append hafter)
  refine ⟨position + before.length, c, tail ++ (after ++ ']' :: rest), _, ?_, hc,
    elements_of_close hvalue (skipGap_append hafter rfl next rest)⟩
  rw [← skipGap_append hbefore hgap]
  simp

theorem isRead_item (hbefore : IsBlank before) (hafter : IsBlank after)
    (h : IsRead limits text (.value v)) (hrest : IsRead limits rest (.items values)) :
    IsRead limits (before ++ (text ++ (after ++ ',' :: rest))) (.items (v :: values)) := by
  intro fuel position behind hfuel
  obtain ⟨⟨c, tail, rfl, hgap, hc, -⟩, hvalue⟩ := h
  obtain ⟨fuel, rfl⟩ : ∃ n, fuel = n + 1 := Nat.exists_eq_succ_of_ne_zero (by omega)
  simp only [List.length_append, List.length_cons] at hfuel
  obtain ⟨next, hvalue⟩ := hvalue fuel (position + before.length)
    (after ++ ',' :: (rest ++ ']' :: behind)) (by rw [List.length_cons]; omega)
    ((stops_cons (by decide) _).gap_append hafter)
  obtain ⟨front, c', tail', last, hgap', -, hitems⟩ :=
    hrest fuel (next + after.length + 1) behind (by omega)
  refine ⟨position + before.length, c, tail ++ (after ++ ',' :: (rest ++ ']' :: behind)), last, ?_,
    hc, elements_of_comma hvalue (skipGap_append hafter rfl next _) (by rw [hgap', hitems])⟩
  rw [← skipGap_append hbefore hgap]
  simp

end Items

/-! ### Objects -/

theorem isRead_noMembers (hinside : limits.inside? = some inside) {gap : List Char}
    (hgap : IsBlank gap) :
    IsRead limits ('\x7b' :: (gap ++ ['\x7d'])) (.value (.object [])) := by
  refine isRead_value rfl (by decide) fun fuel position rest _ _ => ?_
  refine ⟨position + 1 + gap.length + 1, ?_⟩
  rw [List.cons_append, List.append_assoc, List.singleton_append, value]
  simp only [hinside, Cursor.skip, List.drop_succ_cons, List.drop_zero,
    skipGap_append hgap (c := '\x7d') rfl]

theorem isRead_object (hinside : limits.inside? = some inside) {inner : List Char}
    {written : List (String × Value)} (h : IsRead inside inner (.members written)) :
    IsRead limits ('\x7b' :: (inner ++ ['\x7d'])) (.value (.object (collect [] written))) := by
  refine isRead_value rfl (by decide) fun fuel position rest hfuel _ => ?_
  have hlength : inner.length < fuel := by
    simp only [List.length_cons, List.length_append, List.length_nil] at hfuel
    omega
  obtain ⟨front, tail, last, hgap, hmembers⟩ := h [] fuel (position + 1) rest hlength
  refine ⟨last, ?_⟩
  rw [List.cons_append, List.append_assoc, List.singleton_append]
  exact value_of_members hinside hgap hmembers

section Members

variable {before text after rest : List Char} {member : String × Value}
  {written : List (String × Value)}

theorem isRead_member {body name : List Char} {v : Value} (hspells : Spells body name)
    (hbefore : IsBlank before) (hafter : IsBlank after) (h : IsRead limits text (.value v)) :
    IsRead limits ('"' :: (body ++ '"' :: (before ++ ':' :: (after ++ text))))
      (.member (String.ofList name, v)) := by
  refine ⟨_, rfl, fun fuel position rest hfuel hrest => ?_⟩
  obtain ⟨⟨c, tail, rfl, hgap, -⟩, hvalue⟩ := h
  obtain ⟨quote, hstring⟩ := hspells.string_eq position
    (before ++ ':' :: (after ++ (c :: (tail ++ rest))))
  have hcolon := skipGap_append hbefore (c := ':') rfl quote (after ++ (c :: (tail ++ rest)))
  simp only [List.length_append, List.length_cons] at hfuel
  obtain ⟨last, hvalue⟩ := hvalue fuel (quote + before.length + 1 + after.length) rest
    (by rw [List.length_cons]; omega) hrest
  refine ⟨_, _, _, last, ?_, hcolon, ?_⟩
  · rw [← hstring]
    simp
  · rw [skipGap_append hafter hgap]
    exact hvalue

theorem isRead_lastMember (hbefore : IsBlank before) (hafter : IsBlank after)
    (h : IsRead limits text (.member member)) :
    IsRead limits (before ++ (text ++ after)) (.members [member]) := by
  intro read fuel position rest hfuel
  obtain ⟨tail, rfl, hmember⟩ := h
  obtain ⟨fuel, rfl⟩ : ∃ n, fuel = n + 1 := Nat.exists_eq_succ_of_ne_zero (by omega)
  simp only [List.length_append, List.length_cons] at hfuel
  obtain ⟨afterName, colon, afterColon, next, hname, hcolon, hvalue⟩ :=
    hmember fuel (position + before.length + 1) (after ++ '\x7d' :: rest)
      (by rw [List.length_cons]; omega) ((stops_cons (by decide) rest).gap_append hafter)
  refine ⟨position + before.length, tail ++ (after ++ '\x7d' :: rest), _, ?_,
    members_of_close hname hcolon hvalue (skipGap_append hafter rfl next rest)⟩
  rw [← skipGap_append hbefore (c := '"') rfl]
  simp

theorem isRead_members (hbefore : IsBlank before) (hafter : IsBlank after)
    (h : IsRead limits text (.member member)) (hrest : IsRead limits rest (.members written)) :
    IsRead limits (before ++ (text ++ (after ++ ',' :: rest))) (.members (member :: written)) := by
  intro read fuel position behind hfuel
  obtain ⟨tail, rfl, hmember⟩ := h
  obtain ⟨fuel, rfl⟩ : ∃ n, fuel = n + 1 := Nat.exists_eq_succ_of_ne_zero (by omega)
  simp only [List.length_append, List.length_cons] at hfuel
  obtain ⟨afterName, colon, afterColon, next, hname, hcolon, hvalue⟩ :=
    hmember fuel (position + before.length + 1) (after ++ ',' :: (rest ++ '\x7d' :: behind))
      (by rw [List.length_cons]; omega) ((stops_cons (by decide) _).gap_append hafter)
  obtain ⟨front, tail', last, hgap, hmembers⟩ :=
    hrest (put member.1 member.2 read) fuel (next + after.length + 1) behind (by omega)
  refine ⟨position + before.length, tail ++ (after ++ ',' :: (rest ++ '\x7d' :: behind)), last,
    ?_, ?_⟩
  · rw [← skipGap_append hbefore (c := '"') rfl]
    simp
  · rw [members_of_comma hname hcolon hvalue (skipGap_append hafter rfl next _), hgap, hmembers]
    rfl

end Members

/-- Every text of the grammar is read. -/
theorem Denotes.isRead {text : List Char} {phrase : Phrase} (h : Denotes limits text phrase) :
    IsRead limits text phrase := by
  induction h with
  | word h => exact isRead_word h
  | number h hwithin => exact h.isRead hwithin
  | string h => exact h.isRead
  | noItems hinside hgap => exact isRead_noItems hinside hgap
  | array hinside _ ih => exact isRead_array hinside ih
  | noMembers hinside hgap => exact isRead_noMembers hinside hgap
  | object hinside _ ih => exact isRead_object hinside ih
  | lastItem hbefore hafter _ ih => exact isRead_lastItem hbefore hafter ih
  | item hbefore hafter _ _ ih ihrest => exact isRead_item hbefore hafter ih ihrest
  | member hspells hbefore hafter _ ih => exact isRead_member hspells hbefore hafter ih
  | lastMember hbefore hafter _ ih => exact isRead_lastMember hbefore hafter ih
  | members hbefore hafter _ _ ih ihrest => exact isRead_members hbefore hafter ih ihrest

/-! ### Whole texts -/

theorem ne_of_isGap {c : Char} (h : isGap c = true) : c ≠ Char.ofNat 0xfeff := by
  rintro rfl
  exact absurd h (by decide)

theorem parse_of_isText {cs : List Char} {v : Value} (h : IsText limits cs v) :
    parse cs limits = .ok v := by
  obtain ⟨before, text, after, rfl, hbefore, hafter, hdenotes⟩ := h
  obtain ⟨⟨c, tail, rfl, hgap, -, hmark⟩, hvalue⟩ := hdenotes.isRead
  have hnone : ((before ++ (c :: tail ++ after)).head? == some (Char.ofNat 0xfeff)) = false := by
    cases before with
    | nil => simpa using hmark
    | cons d before => simpa using ne_of_isGap (hbefore d List.mem_cons_self)
  have hstart : Cursor.skipGap ⟨0, before ++ (c :: tail ++ after)⟩ =
      ⟨before.length, c :: tail ++ after⟩ := by
    rw [List.cons_append, skipGap_append hbefore hgap, Nat.zero_add]
  obtain ⟨last, hvalue⟩ := hvalue ((before ++ (c :: tail ++ after)).length + 1) before.length after
    (by simp only [List.length_append]; omega) (stops_blank hafter)
  rw [parse, hnone, hstart, hvalue]
  simp only [Bool.false_eq_true, if_false, bind, Except.bind, skipGap_blank hafter]
  rfl

theorem isText_of_parse {cs : List Char} {v : Value} (h : parse cs limits = .ok v) :
    IsText limits cs v := by
  unfold parse at h
  split at h
  · cases h
  · obtain ⟨⟨result, next⟩, hvalue, h⟩ := exists_of_bind_eq_ok h
    obtain ⟨before, hbefore, hstart⟩ := exists_skipGap ⟨0, cs⟩
    obtain ⟨text, htext, hdenotes⟩ := (sound _).value hvalue
    obtain ⟨after, hafter, hnext⟩ := exists_skipGap next
    dsimp only at h
    split at h
    · rename_i hend
      cases h
      refine ⟨before, text, after, ?_, hbefore, hafter, hdenotes⟩
      rw [htext, hnext, hend, List.append_nil] at hstart
      exact hstart
    · cases h

/-- **The texts that are read, and their values.** -/
theorem parse_eq_ok_iff (limits : Limits) (cs : List Char) (v : Value) :
    parse cs limits = .ok v ↔ IsText limits cs v :=
  ⟨isText_of_parse, parse_of_isText⟩

end LineLint.Json
