/-
**What stands in brackets.**

The inside of a bracket is a row of characters and ranges, read from left to right: a hyphen between
two characters makes a range of them.  Reading cuts it into chunks at these hyphens, joins chunks
whose range is reversed and looks for an exclamation mark only then.  So a reversed range counts for
nothing, but an exclamation mark that stands right behind reversed ranges at the front negates as
one at the front does.

Main definitions:

* `LineLint.Glob.Item`, `LineLint.Glob.items` — the characters and ranges, from left to right;
* `LineLint.Glob.asWritten` — a bracket as it is written;
* `LineLint.Glob.asRead` — **a bracket as it is read**.

Main results:

* `LineLint.Glob.marks_chunks` — what is left of the inside without its reversed ranges;
* `LineLint.Glob.has_bracketOf` — **reading gives the bracket that is described**.
-/

import LineLint.Glob
import Mathlib.Data.Char

set_option relaxedAutoImplicit false
set_option autoImplicit false

namespace LineLint.Glob

/-! ### Characters and ranges -/

/-- A part of the inside of a bracket. -/
inductive Item where
  | single (c : Char)
  | range (least greatest : Char)
  deriving DecidableEq, Repr

/-- The parts of the inside of a bracket, from left to right: a hyphen between two characters makes
a range of them. -/
def items : List Char → List Item
  | [] => []
  | least :: '-' :: greatest :: rest => .range least greatest :: items rest
  | c :: rest => .single c :: items rest

namespace Item

/-- The first character of a part. -/
def first : Item → Char
  | .single c => c
  | .range least _ => least

/-- The characters of a part as a range. -/
def toRange : Item → Range
  | .single c => ⟨c, c⟩
  | .range least greatest => ⟨least, greatest⟩

/-- Whether a part is a range whose bounds are reversed. -/
def reversed : Item → Bool
  | .single _ => false
  | .range least greatest => decide (greatest < least)

/-- The marks of a part. -/
def marks : Item → List Mark
  | .single c => [.char c]
  | .range least greatest => [.char least, .hyphen, .char greatest]

end Item

/-- The parts that are not reversed. -/
def kept (parts : List Item) : List Item := parts.filter fun part => !part.reversed

/-! ### Chunks -/

/-- The chunks of some parts: every range ends one chunk and begins the next. -/
def chunksOf : List Item → List (List Char)
  | [] => [[]]
  | .single c :: rest => (chunksOf rest).modifyHead (c :: ·)
  | .range least greatest :: rest => [least] :: (chunksOf rest).modifyHead (greatest :: ·)

/-- The chunks with a hyphen that stands at the very end put into the chunk before it. -/
def closeLast : List (List Char) → List (List Char)
  | [] => []
  | [last, []] => [last ++ ['-']]
  | chunk :: rest => chunk :: closeLast rest

theorem closeLast_append (before : List (List Char)) (last chunk : List Char) :
    closeLast (before ++ [last, chunk]) =
      if chunk = [] then before ++ [last ++ ['-']] else before ++ [last, chunk] := by
  induction before with
  | nil => cases chunk <;> simp [closeLast]
  | cons first before ih =>
      have hcons : closeLast (first :: (before ++ [last, chunk])) =
          first :: closeLast (before ++ [last, chunk]) := by
        cases before <;> simp [closeLast]
      rw [List.cons_append, hcons, ih]
      split <;> rfl

theorem chunks_eq (inside : List Char) :
    chunks inside =
      closeLast (chunksFrom (if inside.head? = some '!' then 2 else 1) [] inside) := by
  simp only [chunks]
  generalize chunksFrom (if inside.head? = some '!' then 2 else 1) [] inside = pieces
  rcases List.eq_nil_or_concat pieces with rfl | ⟨pieces, chunk, rfl⟩
  · rfl
  · rcases List.eq_nil_or_concat pieces with rfl | ⟨before, last, rfl⟩
    · simp [closeLast]
    · have happend : (before.concat last).concat chunk = before ++ [last, chunk] := by simp
      rw [happend, closeLast_append]
      cases chunk <;> simp

theorem closeLast_modifyHead (c : Char) (pieces : List (List Char)) :
    closeLast (pieces.modifyHead (c :: ·)) = (closeLast pieces).modifyHead (c :: ·) := by
  match pieces with
  | [] => rfl
  | [chunk] => rfl
  | [last, []] => rfl
  | [last, _ :: _] => rfl
  | _ :: _ :: _ :: _ => simp [closeLast]

/-- What was put into the first chunk before comes first in it. -/
theorem chunksFrom_head (guard : Nat) (head cs : List Char) :
    chunksFrom guard head cs = (chunksFrom guard [] cs).modifyHead (head ++ ·) := by
  induction cs generalizing guard head with
  | nil => simp [chunksFrom]
  | cons c rest ih =>
      unfold chunksFrom
      split
      · simp
      · rw [ih _ (head ++ [c]), ih _ ([] ++ [c])]
        simp [List.modifyHead_modifyHead, Function.comp_def]

theorem chunksFrom_ne_nil (guard : Nat) (head cs : List Char) : chunksFrom guard head cs ≠ [] := by
  induction cs generalizing guard head with
  | nil => simp [chunksFrom]
  | cons c rest ih =>
      unfold chunksFrom
      split
      · simp
      · exact ih _ _

theorem closeLast_cons (chunk : List Char) (c : Char) {pieces : List (List Char)}
    (h : pieces ≠ []) :
    closeLast (chunk :: pieces.modifyHead (c :: ·)) =
      chunk :: (closeLast pieces).modifyHead (c :: ·) := by
  obtain ⟨first, others, rfl⟩ := List.exists_cons_of_ne_nil h
  rw [← closeLast_modifyHead]
  simp [closeLast]

/-- The chunks of an inside that does not begin with an exclamation mark. -/
theorem closeLast_chunksFrom (cs : List Char) :
    closeLast (chunksFrom 1 [] cs) = chunksOf (items cs) := by
  induction cs using items.induct with
  | case1 => rfl
  | case2 least greatest rest ih =>
      have hstep : chunksFrom 1 [] (least :: '-' :: greatest :: rest) =
          [least] :: (chunksFrom 1 [] rest).modifyHead (greatest :: ·) := by
        simp [chunksFrom, chunksFrom_head 1 [greatest]]
      rw [hstep, closeLast_cons _ _ (chunksFrom_ne_nil 1 [] rest), ih]
      rfl
  | case3 c rest hrange ih =>
      have hitems : items (c :: rest) = .single c :: items rest := by
        rw [items]
        exact hrange
      rw [hitems]
      match rest with
      | [] => simp [chunksFrom, closeLast, chunksOf, items]
      | d :: more =>
          by_cases hd : d = '-'
          · -- the hyphen makes no range, so it is the last character
            subst hd
            cases more with
            | nil => simp [chunksFrom, closeLast, chunksOf, items]
            | cons greatest more => exact absurd rfl (hrange greatest more)
          · have hstep : chunksFrom 1 [] (c :: d :: more) =
                (chunksFrom 1 [] (d :: more)).modifyHead (c :: ·) := by
              simp [chunksFrom, hd, chunksFrom_head 0 [c, d], chunksFrom_head 0 [d],
                List.modifyHead_modifyHead, Function.comp_def]
            rw [hstep, closeLast_modifyHead, ih]
            rfl

/-- The parts of the inside of a bracket.  An exclamation mark in front begins no range. -/
def partsOf : List Char → List Item
  | '!' :: body => .single '!' :: items body
  | inside => items inside

theorem partsOf_of_ne {inside : List Char} (h : inside.head? ≠ some '!') :
    partsOf inside = items inside := by
  unfold partsOf
  split
  · simp at h
  · rfl

theorem chunks_eq_chunksOf (inside : List Char) : chunks inside = chunksOf (partsOf inside) := by
  rw [chunks_eq]
  by_cases h : inside.head? = some '!'
  · obtain ⟨body, rfl⟩ := List.head?_eq_some_iff.mp h
    have hstep : chunksFrom 2 [] ('!' :: body) =
        (chunksFrom 1 [] body).modifyHead ('!' :: ·) := by
      simp [chunksFrom, chunksFrom_head 1 ['!']]
    rw [if_pos h, hstep, closeLast_modifyHead, closeLast_chunksFrom]
    rfl
  · rw [if_neg h, closeLast_chunksFrom, partsOf_of_ne h]

/-! ### Reversed ranges -/

/-- Only the chunks of no parts begin with an empty one. -/
theorem exists_chunksOf (parts : List Item) :
    ∃ first others, chunksOf parts = first :: others ∧ (first = [] → others = []) := by
  induction parts with
  | nil => exact ⟨[], [], rfl, fun _ => rfl⟩
  | cons part rest ih =>
      obtain ⟨first, others, heq, -⟩ := ih
      cases part with
      | single c => exact ⟨c :: first, others, by simp [chunksOf, heq], by simp⟩
      | range least greatest =>
          exact ⟨[least], (greatest :: first) :: others, by simp [chunksOf, heq], by simp⟩

theorem dropReversed_cons (c : Char) {first : List Char} {others : List (List Char)}
    (h : first = [] → others = []) :
    dropReversed ((c :: first) :: others) =
      (dropReversed (first :: others)).modifyHead (c :: ·) := by
  rcases List.eq_nil_or_concat first with rfl | ⟨before, least, rfl⟩
  · rw [h rfl]
    rfl
  · simp only [dropReversed]
    split
    · rfl
    · rw [List.concat_eq_append, ← List.cons_append, List.getLast?_concat, List.getLast?_concat,
        List.dropLast_concat, List.dropLast_concat]
      split
      · split <;> rfl
      · rfl

/-- Dropping the reversed ranges of chunks drops the reversed parts. -/
theorem dropReversed_chunksOf (parts : List Item) :
    dropReversed (chunksOf parts) = chunksOf (kept parts) := by
  induction parts with
  | nil => rfl
  | cons part rest ih =>
      obtain ⟨first, others, heq, hempty⟩ := exists_chunksOf rest
      have hcons : ∀ c, dropReversed ((c :: first) :: others) =
          (chunksOf (kept rest)).modifyHead (c :: ·) := by
        intro c
        rw [dropReversed_cons c hempty, ← heq, ih]
      cases part with
      | single c =>
          simp only [chunksOf, heq, List.modifyHead_cons, hcons]
          rfl
      | range least greatest =>
          obtain ⟨first', others', heq', -⟩ := exists_chunksOf (kept rest)
          have hleft : dropReversed (chunksOf (.range least greatest :: rest)) =
              if greatest < least then first' :: others'
              else [least] :: (greatest :: first') :: others' := by
            rw [chunksOf, heq, List.modifyHead_cons, dropReversed, hcons, heq']
            simp
          rw [hleft]
          by_cases h : greatest < least
          · rw [if_pos h, ← heq']
            simp [kept, Item.reversed, h]
          · have hkept : kept (.range least greatest :: rest) =
                .range least greatest :: kept rest := by
              simp [kept, Item.reversed, h]
            rw [if_neg h, hkept, chunksOf, heq']
            rfl

theorem marks_chunksOf (parts : List Item) : marks (chunksOf parts) = parts.flatMap Item.marks := by
  induction parts with
  | nil => rfl
  | cons part rest ih =>
      obtain ⟨first, others, heq, -⟩ := exists_chunksOf rest
      have hcons : ∀ c, marks ((c :: first) :: others) = .char c :: rest.flatMap Item.marks := by
        intro c
        rw [← ih, heq]
        cases others <;> simp [marks]
      cases part with
      | single c =>
          rw [chunksOf, heq, List.modifyHead_cons, hcons]
          rfl
      | range least greatest =>
          rw [chunksOf, heq, List.modifyHead_cons, marks, hcons]
          · rfl
          · simp

/-- What is left of the inside of a bracket without its reversed ranges. -/
theorem marks_chunks (inside : List Char) :
    marks (dropReversed (chunks inside)) = (kept (partsOf inside)).flatMap Item.marks := by
  rw [chunks_eq_chunksOf, dropReversed_chunksOf, marks_chunksOf]

theorem rangesOf_char (c : Char) (parts : List Item) :
    rangesOf (.char c :: parts.flatMap Item.marks) =
      ⟨c, c⟩ :: rangesOf (parts.flatMap Item.marks) := by
  cases parts with
  | nil => rfl
  | cons part rest => cases part <;> simp [Item.marks, rangesOf, Mark.toChar]

theorem rangesOf_marks (parts : List Item) :
    rangesOf (parts.flatMap Item.marks) = parts.map Item.toRange := by
  induction parts with
  | nil => rfl
  | cons part rest ih =>
      cases part with
      | single c =>
          rw [List.flatMap_cons, List.map_cons, ← ih]
          exact rangesOf_char c rest
      | range least greatest =>
          rw [List.flatMap_cons, List.map_cons, ← ih]
          simp [Item.marks, rangesOf, Item.toRange, Mark.toChar]

/-! ### Brackets as they are written and as they are read -/

/-- A bracket has a character: some range holds it, or none does and the bracket is negated. -/
def Bracket.Has (bracket : Bracket) (c : Char) : Prop :=
  (∃ range ∈ bracket.ranges, range.least ≤ c ∧ c ≤ range.greatest) ↔ bracket.negated = false

theorem Bracket.holds_iff (bracket : Bracket) (c : Char) :
    bracket.holds c = true ↔ bracket.Has c := by
  have hany : bracket.ranges.any (fun r => decide (r.least ≤ c) && decide (c ≤ r.greatest)) = true ↔
      ∃ range ∈ bracket.ranges, range.least ≤ c ∧ c ≤ range.greatest := by
    simp
  rw [Bracket.Has, ← hany, Bracket.holds]
  cases bracket.negated <;> simp

/-- A bracket as it is written: an exclamation mark in front negates the characters and ranges that
follow it. -/
def asWritten : List Char → Bracket
  | '!' :: body => ⟨true, (items body).map Item.toRange⟩
  | inside => ⟨false, (items inside).map Item.toRange⟩

/-- A bracket as it is read: an exclamation mark that stands right behind reversed ranges at the
front negates too.  If a range would begin with it, the hyphen and the end of that range are two
characters. -/
def asRead : List Char → Bracket
  | '!' :: body => ⟨true, (items body).map Item.toRange⟩
  | inside =>
    match (items inside).dropWhile Item.reversed with
    | .single '!' :: rest => ⟨true, rest.map Item.toRange⟩
    | .range '!' greatest :: rest =>
      ⟨true, [⟨'-', '-'⟩, ⟨greatest, greatest⟩] ++ rest.map Item.toRange⟩
    | _ => ⟨false, (items inside).map Item.toRange⟩

section Kept

variable {inside : List Char} {rest : List Item}

theorem bracketOf_of_single (h : kept (partsOf inside) = .single '!' :: rest) :
    bracketOf inside = ⟨true, rest.map Item.toRange⟩ := by
  simp [bracketOf, marks_chunks, h, Item.marks, rangesOf_marks]

theorem bracketOf_of_range {greatest : Char}
    (h : kept (partsOf inside) = .range '!' greatest :: rest) :
    bracketOf inside =
      ⟨true, [⟨'-', '-'⟩, ⟨greatest, greatest⟩] ++ rest.map Item.toRange⟩ := by
  simp [bracketOf, marks_chunks, h, Item.marks, rangesOf, rangesOf_char, rangesOf_marks,
    Mark.toChar]

theorem bracketOf_of_first (h : ∀ part ∈ (kept (partsOf inside)).head?, part.first ≠ '!') :
    bracketOf inside = ⟨false, (kept (partsOf inside)).map Item.toRange⟩ := by
  rw [← rangesOf_marks, ← marks_chunks]
  simp only [bracketOf]
  split
  · rename_i rest heq
    rw [marks_chunks] at heq
    cases hparts : kept (partsOf inside) with
    | nil => simp [hparts] at heq
    | cons part others =>
        rw [hparts] at heq h
        have hne := h part rfl
        cases part <;> simp_all [Item.marks, Item.first]
  · rfl

end Kept

theorem not_reversed_of_mem_range {part : Item} {c : Char} (hleast : part.toRange.least ≤ c)
    (hgreatest : c ≤ part.toRange.greatest) : part.reversed = false := by
  cases part with
  | single d => rfl
  | range least greatest => simpa [Item.reversed, Item.toRange] using le_trans hleast hgreatest

/-- Reversed ranges have no characters, so a bracket may do without them. -/
theorem Bracket.has_append_kept (negated : Bool) (front : List Range) (parts : List Item)
    (c : Char) :
    Bracket.Has ⟨negated, front ++ (kept parts).map Item.toRange⟩ c ↔
      Bracket.Has ⟨negated, front ++ parts.map Item.toRange⟩ c := by
  suffices h : (∃ range ∈ front ++ (kept parts).map Item.toRange,
      range.least ≤ c ∧ c ≤ range.greatest) ↔
      ∃ range ∈ front ++ parts.map Item.toRange, range.least ≤ c ∧ c ≤ range.greatest by
    rw [Bracket.Has, Bracket.Has, h]
  constructor
  · rintro ⟨range, hmem, hleast, hgreatest⟩
    refine ⟨range, ?_, hleast, hgreatest⟩
    rcases List.mem_append.mp hmem with hmem | hmem
    · exact List.mem_append_left _ hmem
    · obtain ⟨part, hpart, rfl⟩ := List.mem_map.mp hmem
      exact List.mem_append_right _ (List.mem_map_of_mem (List.mem_filter.mp hpart).1)
  · rintro ⟨range, hmem, hleast, hgreatest⟩
    refine ⟨range, ?_, hleast, hgreatest⟩
    rcases List.mem_append.mp hmem with hmem | hmem
    · exact List.mem_append_left _ hmem
    · obtain ⟨part, hpart, rfl⟩ := List.mem_map.mp hmem
      refine List.mem_append_right _ (List.mem_map_of_mem (List.mem_filter.mpr ⟨hpart, ?_⟩))
      rw [not_reversed_of_mem_range hleast hgreatest]
      rfl

theorem kept_dropWhile (parts : List Item) : kept (parts.dropWhile Item.reversed) = kept parts := by
  induction parts with
  | nil => rfl
  | cons part rest ih =>
      by_cases h : part.reversed = true
      · rw [List.dropWhile_cons_of_pos h, ih]
        simp [kept, h]
      · rw [List.dropWhile_cons_of_neg h]

/-- The first part behind the reversed ranges at the front is kept. -/
theorem kept_of_dropWhile {parts rest : List Item} {part : Item}
    (h : parts.dropWhile Item.reversed = part :: rest) : kept parts = part :: kept rest := by
  have hpart : part.reversed = false := by
    have hhead := List.head_dropWhile_not Item.reversed (h ▸ List.cons_ne_nil part rest)
    simpa [h] using hhead
  rw [← kept_dropWhile, h]
  simp [kept, hpart]

/-- **Reading gives the bracket that is described.** -/
theorem has_bracketOf (inside : List Char) (c : Char) :
    (bracketOf inside).Has c ↔ (asRead inside).Has c := by
  unfold asRead
  split
  · rename_i body
    have hkept : kept (partsOf ('!' :: body)) = .single '!' :: kept (items body) := rfl
    rw [bracketOf_of_single hkept]
    exact Bracket.has_append_kept true [] (items body) c
  · rename_i hfront
    have hparts : partsOf inside = items inside := partsOf_of_ne (by
      intro h
      obtain ⟨body, rfl⟩ := List.head?_eq_some_iff.mp h
      exact hfront body rfl)
    split
    · rename_i rest heq
      rw [bracketOf_of_single (hparts ▸ kept_of_dropWhile heq)]
      exact Bracket.has_append_kept true [] rest c
    · rename_i greatest rest heq
      rw [bracketOf_of_range (hparts ▸ kept_of_dropWhile heq)]
      exact Bracket.has_append_kept true _ rest c
    · rename_i hsingle hrange
      rw [bracketOf_of_first, hparts]
      · exact Bracket.has_append_kept false [] (items inside) c
      · intro part hpart hfirst
        rw [hparts] at hpart
        cases hrest : (items inside).dropWhile Item.reversed with
        | nil =>
            rw [← kept_dropWhile, hrest] at hpart
            simp [kept] at hpart
        | cons first rest =>
            rw [kept_of_dropWhile hrest, List.head?_cons, Option.mem_some_iff] at hpart
            subst hpart
            cases first with
            | single d =>
                subst hfirst
                exact hsingle rest hrest
            | range least greatest =>
                subst hfirst
                exact hrange greatest rest hrest

end LineLint.Glob
