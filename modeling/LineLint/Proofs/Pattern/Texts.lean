/-
**What rows, alternatives and texts match.**

A pattern without conditions on its surroundings describes a set of texts, and matches where one of
them stands.

Main definitions:

* `LineLint.Pattern.Describes` — a pattern describes some texts.

Main results:

* `LineLint.Pattern.matches_seq_iff`, `LineLint.Pattern.matches_oneOf_iff`,
  `LineLint.Pattern.matches_ofText_iff` — what rows, alternatives and texts match;
* `LineLint.Pattern.describes_chars`, `LineLint.Pattern.Describes.seq`,
  `LineLint.Pattern.describes_any_chars` — the texts that classes, rows and repetitions describe;
* `LineLint.Pattern.occursIn_iff` — a search for a regular pattern finds a match if there is one.
-/

import LineLint.Proofs.Pattern.MaximalRuns

set_option relaxedAutoImplicit false
set_option autoImplicit false

namespace LineLint.Pattern

/-! ### Rows and alternatives -/

theorem matches_seq_iff {text : Array Char} {first second : Pattern} {i k : Nat} :
    Matches text (.seq first second) i k ↔
      ∃ j, Matches text first i j ∧ Matches text second j k := by
  constructor
  · intro h
    cases h with
    | seq hfirst hsecond => exact ⟨_, hfirst, hsecond⟩
  · rintro ⟨j, hfirst, hsecond⟩
    exact .seq hfirst hsecond

theorem matches_anchor_iff {text : Array Char} {condition : Anchor} {i j : Nat} :
    Matches text (.anchor condition) i j ↔ j = i ∧ condition.At text i := by
  constructor
  · intro h
    cases h with
    | anchor hat => exact ⟨rfl, hat⟩
  · rintro ⟨rfl, hat⟩
    exact .anchor hat

/-- Alternatives match what one of them does. -/
theorem matches_oneOf_iff {text : Array Char} {patterns : List Pattern} (hne : patterns ≠ [])
    {i j : Nat} :
    Matches text (oneOf patterns) i j ↔ ∃ pattern ∈ patterns, Matches text pattern i j := by
  induction patterns with
  | nil => exact absurd rfl hne
  | cons pattern rest ih =>
      cases rest with
      | nil => simp [oneOf]
      | cons other rest =>
          rw [oneOf, List.exists_mem_cons_iff, ← ih (by simp)]
          constructor
          · intro h
            cases h with
            | altFirst h => exact Or.inl h
            | altSecond h => exact Or.inr h
          · rintro (h | h)
            · exact .altFirst h
            · exact .altSecond h
          · simp

/-! ### Texts -/

theorem matches_literal_iff {cs : List Char} {c : Char} {i j : Nat} :
    Matches cs.toArray (.chars (CharClass.literal {} c.toNat)) i j ↔
      j = i + 1 ∧ cs[i]? = some c := by
  have hholds (d : Char) : (CharClass.literal {} c.toNat).holds d = (d == c) := by
    rw [← CharItem.single_holds c d]
    simp [CharClass.literal, CharClass.holds, foldChar]
  constructor
  · intro h
    cases h with
    | chars hget hc =>
        rw [hholds, beq_iff_eq] at hc
        rw [List.getElem?_toArray, hc] at hget
        exact ⟨rfl, hget⟩
  · rintro ⟨rfl, hget⟩
    refine .chars (c := c) (by simpa using hget) ?_
    rw [hholds, beq_self_eq_true]

theorem cons_prefix_drop_iff {cs word : List Char} {c : Char} {i : Nat} :
    c :: word <+: cs.drop i ↔ cs[i]? = some c ∧ word <+: cs.drop (i + 1) := by
  rcases Nat.lt_or_ge i cs.length with hi | hi
  · rw [List.drop_eq_getElem_cons hi, List.cons_prefix_cons, List.getElem?_eq_getElem hi,
      Option.some.injEq, eq_comm]
  · rw [List.drop_eq_nil_of_le hi, List.getElem?_eq_none hi]
    simp

/-- A text matches where its characters stand. -/
theorem matches_ofText_iff {cs : List Char} {word : String} {i j : Nat} :
    Matches cs.toArray (ofText word) i j ↔
      j = i + word.toList.length ∧ word.toList <+: cs.drop i := by
  rw [ofText]
  generalize word.toList = word
  induction word generalizing i with
  | nil =>
      constructor
      · intro h
        cases h
        exact ⟨rfl, List.nil_prefix⟩
      · rintro ⟨rfl, -⟩
        exact .empty _
  | cons c word ih =>
      rw [cons_prefix_drop_iff]
      cases word with
      | nil =>
          rw [List.map_cons, List.map_nil, ofList, matches_literal_iff]
          simp
      | cons d word =>
          have hofList : ofList (List.map (fun c => Pattern.chars (CharClass.literal {} c.toNat))
                (c :: d :: word)) =
              .seq (.chars (CharClass.literal {} c.toNat))
                (ofList (List.map (fun c => .chars (CharClass.literal {} c.toNat)) (d :: word))) :=
            rfl
          rw [hofList, matches_seq_iff]
          simp only [matches_literal_iff, ih, List.length_cons]
          constructor
          · rintro ⟨j, ⟨rfl, hget⟩, rfl, hrest⟩
            exact ⟨by omega, hget, hrest⟩
          · rintro ⟨rfl, hget, hrest⟩
            exact ⟨i + 1, ⟨rfl, hget⟩, by omega, hrest⟩

/-! ### Sets of texts -/

/-- A pattern describes some texts: it matches where one of them stands, whatever is around it. -/
def Describes (pattern : Pattern) (texts : List Char → Prop) : Prop :=
  ∀ (cs : List Char) (i j : Nat), Matches cs.toArray pattern i j ↔
    ∃ word, texts word ∧ word <+: cs.drop i ∧ j = i + word.length

theorem Describes.congr {pattern : Pattern} {texts texts' : List Char → Prop}
    (h : Describes pattern texts) (hiff : ∀ word, texts word ↔ texts' word) :
    Describes pattern texts' := by
  intro cs i j
  simp only [h cs i j, hiff]

/-- A class describes its characters. -/
theorem describes_chars (cls : CharClass) :
    Describes (.chars cls) fun word => ∃ c, word = [c] ∧ cls.holds c = true := by
  intro cs i j
  constructor
  · intro h
    cases h with
    | @chars _ _ c hget hc =>
        refine ⟨[c], ⟨c, rfl, hc⟩, cons_prefix_drop_iff.2 ⟨?_, List.nil_prefix⟩, rfl⟩
        simpa using hget
  · rintro ⟨_, ⟨c, rfl, hc⟩, hstands, rfl⟩
    exact .chars (by simpa using (cons_prefix_drop_iff.1 hstands).1) hc

/-- Two texts stand one after the other where the second stands behind the first. -/
theorem append_prefix_drop_iff {cs first second : List Char} {i : Nat} :
    first ++ second <+: cs.drop i ↔
      first <+: cs.drop i ∧ second <+: cs.drop (i + first.length) := by
  induction first generalizing i with
  | nil => simp
  | cons c first ih =>
      rw [List.cons_append, cons_prefix_drop_iff, ih, cons_prefix_drop_iff, and_assoc,
        List.length_cons, Nat.add_right_comm, Nat.add_assoc]

/-- One pattern after the other describes the texts of the one followed by those of the other. -/
theorem Describes.seq {first second : Pattern} {texts texts' : List Char → Prop}
    (hfirst : Describes first texts) (hsecond : Describes second texts') :
    Describes (.seq first second)
      fun word => ∃ a b, word = a ++ b ∧ texts a ∧ texts' b := by
  intro cs i k
  rw [matches_seq_iff]
  constructor
  · rintro ⟨j, h, h'⟩
    obtain ⟨a, ha, hstands, rfl⟩ := (hfirst cs i j).1 h
    obtain ⟨b, hb, hstands', rfl⟩ := (hsecond cs _ k).1 h'
    refine ⟨a ++ b, ⟨a, b, rfl, ha, hb⟩, append_prefix_drop_iff.2 ⟨hstands, hstands'⟩, ?_⟩
    rw [List.length_append, Nat.add_assoc]
  · rintro ⟨_, ⟨a, b, rfl, ha, hb⟩, hstands, rfl⟩
    obtain ⟨hstands, hstands'⟩ := append_prefix_drop_iff.1 hstands
    refine ⟨i + a.length, (hfirst cs i _).2 ⟨a, ha, hstands, rfl⟩,
      (hsecond cs _ _).2 ⟨b, hb, hstands', ?_⟩⟩
    rw [List.length_append, Nat.add_assoc]

/-- So many characters of a class in a row. -/
theorem rounds_chars_iff_word {cls : CharClass} {cs : List Char} {count i j : Nat} :
    Rounds cs.toArray (.chars cls) count i j ↔
      ∃ word, (∀ c ∈ word, cls.holds c = true) ∧ word.length = count ∧ word <+: cs.drop i ∧
        j = i + count := by
  induction count generalizing i with
  | zero =>
      constructor
      · intro h
        cases h
        exact ⟨[], by simp⟩
      · rintro ⟨_, -, -, -, rfl⟩
        exact .none _
  | succ count ih =>
      constructor
      · intro h
        cases h with
        | next hfirst hrest =>
            obtain ⟨_, ⟨c, rfl, hc⟩, hstands, rfl⟩ := (describes_chars cls cs i _).1 hfirst
            obtain ⟨word, hword, hlength, hstands', rfl⟩ := ih.1 hrest
            refine ⟨c :: word, List.forall_mem_cons.2 ⟨hc, hword⟩, congrArg (· + 1) hlength,
              cons_prefix_drop_iff.2 ⟨(cons_prefix_drop_iff.1 hstands).1, hstands'⟩, ?_⟩
            rw [List.length_singleton]
            omega
      · rintro ⟨word, hword, hlength, hstands, rfl⟩
        obtain ⟨c, word, rfl⟩ := List.exists_cons_of_length_eq_add_one hlength
        obtain ⟨hc, hword⟩ := List.forall_mem_cons.1 hword
        obtain ⟨hget, hstands⟩ := cons_prefix_drop_iff.1 hstands
        refine .next (.chars (by simpa using hget) hc)
          (ih.2 ⟨word, hword, Nat.succ.inj hlength, hstands, by omega⟩)

/-- Any number of characters of a class in a row. -/
theorem describes_any_chars (cls : CharClass) (mode : Mode) :
    Describes (.repeated (.chars cls) 0 none mode) fun word => ∀ c ∈ word, cls.holds c = true := by
  intro cs i j
  constructor
  · intro h
    cases h with
    | repeated _ _ hrounds =>
        obtain ⟨word, hword, rfl, hstands, rfl⟩ := rounds_chars_iff_word.1 hrounds
        exact ⟨word, hword, hstands, rfl⟩
  · rintro ⟨word, hword, hstands, rfl⟩
    exact .repeated (Nat.zero_le _) (by simp)
      (rounds_chars_iff_word.2 ⟨word, hword, rfl, hstands, rfl⟩)

/-! ### Searches and edges -/

/-- A search for a regular pattern finds a match if there is one. -/
theorem occursIn_iff (text : Array Char) {pattern : Pattern} (hregular : pattern.regular = true)
    (hbounds : pattern.InOrder) :
    occursIn text pattern = true ↔ ∃ i j, i ≤ j ∧ j ≤ text.size ∧ Matches text pattern i j := by
  have hnone := (exhausts_occurrences text hregular hbounds).nil_iff
  have hsearch : occurrences text pattern = [] ↔ search text pattern false 0 = none := by
    rw [occurrences, occurrencesFrom]
    cases search text pattern false 0 with
    | none => simp
    | some span => simp
  rw [occursIn, Option.isSome_iff_ne_none, ne_eq, ← hsearch, hnone]
  simp only [not_forall, Classical.not_not, exists_prop]

theorem wordBefore_iff {cs : List Char} {i : Nat} :
    WordBefore false cs.toArray i ↔ (Text.charBefore cs i).any Text.isWord = true := by
  rw [WordBefore, Option.any_eq_true]
  cases i with
  | zero => simp [Text.charBefore]
  | succ k => simp [Text.charBefore, Kind.holds]

theorem wordAfter_iff {cs : List Char} {i : Nat} :
    WordAfter false cs.toArray i ↔ cs[i]?.any Text.isWord = true := by
  rw [WordAfter, Option.any_eq_true, List.getElem?_toArray]
  exact Iff.rfl

end LineLint.Pattern
