/-
**Cutting a text at a separator, and joining the pieces again.**

Main definitions:

* `LineLint.Text.splitAt` — the pieces between the separators; a text without one is one piece;
* `LineLint.Text.lines` — the lines of a text, which only a line feed divides;
* `LineLint.Text.join` — the pieces with a separator between them.

Main results:

* `LineLint.Text.splitAt_ne_nil` — there is always at least one piece;
* `LineLint.Text.splitAt_append_cons` — a separator cuts a text into two that are cut on their own;
* `LineLint.Text.length_splitAt` — there is one piece more than there are separators;
* `LineLint.Text.splitAt_joinChars` — cutting what was joined gives the pieces back.
-/

set_option relaxedAutoImplicit false
set_option autoImplicit false

namespace LineLint.Text

/-- The pieces of the characters between the separators, empty ones included. -/
def splitAt (separator : Char) : List Char → List (List Char)
  | [] => [[]]
  | c :: rest =>
    if c = separator then
      [] :: splitAt separator rest
    else
      match splitAt separator rest with
      | [] => [[c]]
      | piece :: pieces => (c :: piece) :: pieces

/-- The pieces with the separator between them. -/
def joinChars (separator : List Char) : List (List Char) → List Char
  | [] => []
  | [piece] => piece
  | piece :: pieces => piece ++ separator ++ joinChars separator pieces

/-- The texts with the separator between them. -/
def join (separator : String) (pieces : List String) : String :=
  String.ofList (joinChars separator.toList (pieces.map String.toList))

/-- The lines of a text.  Only a line feed divides lines, so a carriage return stays on its line. -/
def lines (text : String) : List (List Char) :=
  splitAt '\n' text.toList

theorem splitAt_ne_nil (separator : Char) (cs : List Char) : splitAt separator cs ≠ [] := by
  cases cs with
  | nil => simp [splitAt]
  | cons c rest =>
    unfold splitAt
    split
    · simp
    · split <;> simp

/-- A separator cuts: what is before it and what is after it have pieces of their own. -/
theorem splitAt_append_cons (separator : Char) (before after : List Char) :
    splitAt separator (before ++ separator :: after) =
      splitAt separator before ++ splitAt separator after := by
  induction before with
  | nil => simp [splitAt]
  | cons c rest ih =>
    by_cases hc : c = separator
    · simp [splitAt, hc, ih]
    · cases hs : splitAt separator rest with
      | nil => exact absurd hs (splitAt_ne_nil separator rest)
      | cons piece pieces => simp [splitAt, hc, ih, hs]

theorem length_splitAt (separator : Char) (cs : List Char) :
    (splitAt separator cs).length = cs.count separator + 1 := by
  induction cs with
  | nil => rfl
  | cons c rest ih =>
    by_cases hc : c = separator
    · simp [splitAt, hc, ih]
    · cases hs : splitAt separator rest with
      | nil => exact absurd hs (splitAt_ne_nil separator rest)
      | cons piece pieces =>
        rw [hs] at ih
        simpa [splitAt, hc, hs, List.count_cons] using ih

theorem splitAt_of_not_mem {separator : Char} {cs : List Char} (h : separator ∉ cs) :
    splitAt separator cs = [cs] := by
  induction cs with
  | nil => rfl
  | cons c rest ih =>
    obtain ⟨hc, hrest⟩ := not_or.mp (mt List.mem_cons.mpr h)
    simp [splitAt, Ne.symm hc, ih hrest]

theorem not_mem_of_mem_splitAt {separator : Char} {cs piece : List Char}
    (h : piece ∈ splitAt separator cs) : separator ∉ piece := by
  induction cs generalizing piece with
  | nil => simp_all [splitAt]
  | cons c rest ih =>
    by_cases hc : c = separator
    · rw [splitAt, if_pos hc] at h
      rcases List.mem_cons.mp h with rfl | h
      · simp
      · exact ih h
    · cases hs : splitAt separator rest with
      | nil => exact absurd hs (splitAt_ne_nil separator rest)
      | cons first pieces =>
        simp only [splitAt, if_neg hc, hs] at h
        rcases List.mem_cons.mp h with rfl | h
        · simpa [Ne.symm hc] using ih (hs ▸ List.mem_cons_self)
        · exact ih (hs ▸ List.mem_cons_of_mem _ h)

/-- Pieces without the separator are found again between the separators. -/
theorem splitAt_joinChars {separator : Char} {pieces : List (List Char)} (hne : pieces ≠ [])
    (h : ∀ piece ∈ pieces, separator ∉ piece) :
    splitAt separator (joinChars [separator] pieces) = pieces := by
  induction pieces with
  | nil => exact absurd rfl hne
  | cons piece rest ih =>
    obtain ⟨hpiece, hrest⟩ := List.forall_mem_cons.mp h
    cases rest with
    | nil => exact splitAt_of_not_mem hpiece
    | cons next others =>
      have hjoin : joinChars [separator] (piece :: next :: others) =
          piece ++ separator :: joinChars [separator] (next :: others) := by
        simp [joinChars]
      rw [hjoin, splitAt_append_cons, splitAt_of_not_mem hpiece, ih (by simp) hrest]
      rfl

theorem joinChars_append (separator : List Char) {first second : List (List Char)}
    (hfirst : first ≠ []) (hsecond : second ≠ []) :
    joinChars separator (first ++ second) =
      joinChars separator first ++ separator ++ joinChars separator second := by
  induction first with
  | nil => exact absurd rfl hfirst
  | cons piece rest ih =>
    cases rest with
    | nil =>
      cases second with
      | nil => exact absurd rfl hsecond
      | cons next others => rfl
    | cons next others =>
      have hrest := ih (by simp)
      simp only [List.cons_append, joinChars] at hrest ⊢
      simp only [hrest, List.append_assoc]

end LineLint.Text
