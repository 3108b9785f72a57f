/-
**Excluded paths.**

A pattern matches a text if the text can be cut into consecutive pieces, one for each token: any
piece for a star, one character for every other token.  Matching chooses early: each run of tokens
between two stars is taken at the first place at which it stands, and that choice is never undone.
Nothing is lost, as the first place leaves the longest rest, and the next star can take what is too
much of it.  The tokens themselves are described from left to right, without the search for the end
of a bracket.

Main definitions:

* `LineLint.Glob.Token.Takes`, `LineLint.Glob.Cuts` — the pieces of a text;
* `LineLint.Glob.Encloses` — the inside of a bracket;
* `LineLint.Glob.Reads` — the tokens of a pattern, from left to right.

Main results:

* `LineLint.Glob.cuts_star_run_star_iff` — between two stars the first place is as good as any;
* `LineLint.Glob.matchTokens_iff` — **matching finds a cut if there is one**;
* `LineLint.Glob.existsUnique_reads` — every pattern is read in exactly one way;
* `LineLint.Glob.excludes_iff_cuts` — **the paths that patterns exclude**.
-/

import LineLint.Proofs.Glob.Brackets
import Mathlib.Data.List.Forall2
import Mathlib.Data.List.TakeWhile

set_option relaxedAutoImplicit false
set_option autoImplicit false

namespace LineLint.Glob

/-! ### Cuts of a text -/

/-- A token takes a piece of a text. -/
inductive Token.Takes : Token → List Char → Prop where
  | star (piece : List Char) : Takes .star piece
  | one (c : Char) : Takes .one [c]
  | oneOf {bracket : Bracket} {c : Char} : bracket.Has c → Takes (.oneOf bracket) [c]
  | literal (c : Char) : Takes (.literal c) [c]

/-- A text can be cut into pieces that the tokens take one by one. -/
def Cuts (parts : List Token) (text : List Char) : Prop :=
  ∃ pieces : List (List Char), pieces.flatten = text ∧ List.Forall₂ Token.Takes parts pieces

theorem cuts_nil_iff {text : List Char} : Cuts [] text ↔ text = [] := by
  constructor
  · rintro ⟨pieces, rfl, hpieces⟩
    cases hpieces
    rfl
  · rintro rfl
    exact ⟨[], rfl, .nil⟩

theorem cuts_cons_iff {token : Token} {rest : List Token} {text : List Char} :
    Cuts (token :: rest) text ↔
      ∃ piece after, text = piece ++ after ∧ token.Takes piece ∧ Cuts rest after := by
  constructor
  · rintro ⟨pieces, rfl, hpieces⟩
    cases hpieces with
    | @cons _ piece _ pieces htakes hrest =>
        exact ⟨piece, pieces.flatten, rfl, htakes, pieces, rfl, hrest⟩
  · rintro ⟨piece, after, rfl, htakes, pieces, rfl, hrest⟩
    exact ⟨piece :: pieces, rfl, .cons htakes hrest⟩

theorem Token.takes_iff {token : Token} (h : token ≠ .star) {piece : List Char} :
    token.Takes piece ↔ ∃ c, piece = [c] ∧ token.holds c = true := by
  constructor
  · intro htakes
    cases htakes with
    | star => exact absurd rfl h
    | one c => exact ⟨c, rfl, rfl⟩
    | oneOf hhas => exact ⟨_, rfl, (Bracket.holds_iff _ _).mpr hhas⟩
    | literal c => exact ⟨c, rfl, beq_self_eq_true c⟩
  · rintro ⟨c, rfl, hholds⟩
    cases token with
    | star => exact absurd rfl h
    | one => exact .one c
    | oneOf bracket => exact .oneOf ((Bracket.holds_iff _ _).mp hholds)
    | literal d =>
        have hd : c = d := eq_of_beq hholds
        exact hd ▸ .literal c

/-- Any other token takes one character. -/
theorem cuts_cons_iff_of_ne {token : Token} (h : token ≠ .star) {rest : List Token}
    {text : List Char} :
    Cuts (token :: rest) text ↔
      ∃ c after, text = c :: after ∧ token.holds c = true ∧ Cuts rest after := by
  rw [cuts_cons_iff]
  constructor
  · rintro ⟨piece, after, rfl, htakes, hrest⟩
    obtain ⟨c, rfl, hholds⟩ := (Token.takes_iff h).mp htakes
    exact ⟨c, after, rfl, hholds, hrest⟩
  · rintro ⟨c, after, rfl, hholds, hrest⟩
    exact ⟨[c], after, rfl, (Token.takes_iff h).mpr ⟨c, rfl, hholds⟩, hrest⟩

/-! ### Runs of tokens -/

/-- The tokens of runs, with a star between them. -/
def joinRuns : List (List Token) → List Token
  | [] => []
  | [run] => run
  | run :: others => run ++ .star :: joinRuns others

theorem runs_ne_nil (parts : List Token) : runs parts ≠ [] := by
  cases parts with
  | nil => simp [runs]
  | cons token rest =>
      unfold runs
      split
      · next h => cases h
      · simp
      · split <;> simp

theorem runs_cons_of_ne {token : Token} (h : token ≠ .star) {rest run : List Token}
    {others : List (List Token)} (hrest : runs rest = run :: others) :
    runs (token :: rest) = (token :: run) :: others := by
  cases token with
  | star => exact absurd rfl h
  | one => rw [runs, hrest]; exact nofun
  | oneOf bracket => rw [runs, hrest]; exact nofun
  | literal c => rw [runs, hrest]; exact nofun

/-- Between the runs there are the stars, and nothing else. -/
theorem joinRuns_runs (parts : List Token) : joinRuns (runs parts) = parts := by
  induction parts with
  | nil => rfl
  | cons token rest ih =>
      obtain ⟨run, others, hruns⟩ := List.exists_cons_of_ne_nil (runs_ne_nil rest)
      rw [hruns] at ih
      by_cases h : token = .star
      · subst h
        rw [runs, hruns, joinRuns, ih, List.nil_append]
        exact List.cons_ne_nil run others
      · rw [runs_cons_of_ne h hruns, ← ih]
        cases others <;> rfl

theorem star_not_mem_of_mem_runs {parts run : List Token} (h : run ∈ runs parts) :
    Token.star ∉ run := by
  induction parts generalizing run with
  | nil =>
      rw [List.mem_singleton.1 h]
      exact List.not_mem_nil
  | cons token rest ih =>
      obtain ⟨first, others, hruns⟩ := List.exists_cons_of_ne_nil (runs_ne_nil rest)
      by_cases htoken : token = .star
      · subst htoken
        rw [runs] at h
        rcases List.mem_cons.1 h with rfl | h
        · exact List.not_mem_nil
        · exact ih h
      · rw [runs_cons_of_ne htoken hruns] at h
        rw [hruns] at ih
        rcases List.mem_cons.1 h with rfl | h
        · exact List.not_mem_cons_of_ne_of_not_mem (Ne.symm htoken) (ih List.mem_cons_self)
        · exact ih (List.mem_cons_of_mem _ h)

/-- A run takes one character for each of its tokens. -/
theorem exists_taken {run : List Token} {text left : List Char}
    (h : after? run text = some left) :
    ∃ taken, text = taken ++ left ∧ taken.length = run.length := by
  induction run generalizing text with
  | nil =>
      cases h
      exact ⟨[], rfl, rfl⟩
  | cons token run ih =>
      cases text with
      | nil => cases h
      | cons c text =>
          rw [after?] at h
          split at h
          · obtain ⟨taken, rfl, hlength⟩ := ih h
            exact ⟨c :: taken, rfl, congrArg (· + 1) hlength⟩
          · cases h

theorem cuts_append_iff {run rest : List Token} (hrun : Token.star ∉ run) {text : List Char} :
    Cuts (run ++ rest) text ↔ ∃ left, after? run text = some left ∧ Cuts rest left := by
  induction run generalizing text with
  | nil => simp [after?]
  | cons token run ih =>
      have htoken : token ≠ .star := (List.ne_of_not_mem_cons hrun).symm
      have hrun : Token.star ∉ run := List.not_mem_of_not_mem_cons hrun
      rw [List.cons_append, cuts_cons_iff_of_ne htoken]
      cases text with
      | nil => simp [after?]
      | cons c text =>
          by_cases hholds : token.holds c = true
          · simp [after?, hholds, ih hrun]
          · simp [after?, hholds]

/-! ### Early choices -/

/-- A star can take more: what is cut behind some piece is cut with it too. -/
theorem Cuts.star_of_suffix {rest : List Token} {text longer : List Char}
    (h : Cuts (.star :: rest) text) (hsuffix : text <:+ longer) : Cuts (.star :: rest) longer := by
  obtain ⟨piece, rfl⟩ := hsuffix
  obtain ⟨taken, after, rfl, -, hafter⟩ := cuts_cons_iff.1 h
  exact cuts_cons_iff.2 ⟨piece ++ taken, after, (List.append_assoc ..).symm, .star _, hafter⟩

theorem exists_place_of_search? {run : List Token} {text left : List Char}
    (h : search? run text = some left) :
    ∃ piece rest, text = piece ++ rest ∧ after? run rest = some left := by
  induction text with
  | nil => exact ⟨[], [], rfl, h⟩
  | cons c text ih =>
      rw [search?] at h
      split at h
      · next hafter =>
          cases h
          exact ⟨[], c :: text, rfl, hafter⟩
      · obtain ⟨piece, rest, rfl, hafter⟩ := ih h
        exact ⟨c :: piece, rest, rfl, hafter⟩

/-- The first place leaves at least as much as any other one. -/
theorem exists_search? {run : List Token} {piece rest left : List Char}
    (h : after? run rest = some left) :
    ∃ more, search? run (piece ++ rest) = some more ∧ left <:+ more := by
  induction piece with
  | nil =>
      refine ⟨left, ?_, List.suffix_rfl⟩
      cases rest with
      | nil => exact h
      | cons c rest => rw [List.nil_append, search?, h]
  | cons c piece ih =>
      cases hafter : after? run (c :: (piece ++ rest)) with
      | none =>
          rw [List.cons_append, search?, hafter]
          exact ih
      | some more =>
          refine ⟨more, by rw [List.cons_append, search?, hafter], ?_⟩
          obtain ⟨taken, rfl, hlength⟩ := exists_taken h
          obtain ⟨front, hfront, hfrontLength⟩ := exists_taken hafter
          have hsuffix : left <:+ c :: (piece ++ (taken ++ left)) := ⟨c :: (piece ++ taken), by simp⟩
          refine List.suffix_of_suffix_length_le hsuffix ⟨front, hfront.symm⟩ ?_
          have hboth := congrArg List.length hfront
          simp only [List.length_cons, List.length_append] at hboth
          omega

/-- **Between two stars the first place is as good as any other one.** -/
theorem cuts_star_run_star_iff {run rest : List Token} (hrun : Token.star ∉ run)
    {text : List Char} :
    Cuts (.star :: (run ++ .star :: rest)) text ↔
      ∃ left, search? run text = some left ∧ Cuts (.star :: rest) left := by
  constructor
  · intro h
    obtain ⟨piece, after, rfl, -, hafter⟩ := cuts_cons_iff.1 h
    obtain ⟨left, hleft, hrest⟩ := (cuts_append_iff hrun).1 hafter
    -- the cut may have the run at a later place; the star behind it takes what is between
    obtain ⟨more, hmore, hsuffix⟩ := exists_search? hleft
    exact ⟨more, hmore, hrest.star_of_suffix hsuffix⟩
  · rintro ⟨left, hleft, hrest⟩
    obtain ⟨piece, after, rfl, hafter⟩ := exists_place_of_search? hleft
    exact cuts_cons_iff.2
      ⟨piece, after, rfl, .star _, (cuts_append_iff hrun).2 ⟨left, hafter, hrest⟩⟩

theorem after?_eq_some_nil_iff {run : List Token} (hrun : Token.star ∉ run) {text : List Char} :
    after? run text = some [] ↔ Cuts run text := by
  rw [← List.append_nil run, cuts_append_iff hrun]
  simp [cuts_nil_iff]

/-- The last run stands at the end. -/
theorem endsWith_iff {run : List Token} (hrun : Token.star ∉ run) {text : List Char} :
    endsWith run text = true ↔ Cuts (.star :: run) text := by
  rw [endsWith, Bool.and_eq_true, decide_eq_true_iff, Option.isSome_iff_exists, cuts_cons_iff]
  constructor
  · rintro ⟨hle, left, hleft⟩
    obtain ⟨taken, htaken, hlength⟩ := exists_taken hleft
    have hnone : left = [] := by
      have hboth := congrArg List.length htaken
      rw [List.length_drop, List.length_append] at hboth
      exact List.length_eq_zero_iff.1 (by omega)
    subst hnone
    exact ⟨_, _, (List.take_append_drop (text.length - run.length) text).symm, .star _,
      (after?_eq_some_nil_iff hrun).1 hleft⟩
  · rintro ⟨piece, after, rfl, -, hafter⟩
    have hleft := (after?_eq_some_nil_iff hrun).2 hafter
    obtain ⟨taken, htaken, hlength⟩ := exists_taken hleft
    rw [List.append_nil] at htaken
    subst htaken
    rw [List.length_append, hlength, Nat.add_sub_cancel, List.drop_left]
    exact ⟨Nat.le_add_left _ _, [], hleft⟩

theorem matchBehindStars_iff {others : List (List Token)} (hne : others ≠ [])
    (h : ∀ run ∈ others, Token.star ∉ run) (text : List Char) :
    matchBehindStars others text = true ↔ Cuts (.star :: joinRuns others) text := by
  induction others generalizing text with
  | nil => exact absurd rfl hne
  | cons run others ih =>
      obtain ⟨hrun, hothers⟩ := List.forall_mem_cons.1 h
      cases others with
      | nil => exact endsWith_iff hrun
      | cons next others =>
          rw [joinRuns, cuts_star_run_star_iff hrun, matchBehindStars]
          · split
            · next hnone => simp [hnone]
            · next left hleft =>
                rw [ih (List.cons_ne_nil _ _) hothers]
                simp [hleft]
          · exact List.cons_ne_nil next others
          · exact List.cons_ne_nil next others

/-- **Matching with early choices finds a cut of the text if there is one.** -/
theorem matchTokens_iff (parts : List Token) (text : List Char) :
    matchTokens parts text = true ↔ Cuts parts text := by
  obtain ⟨first, others, hruns⟩ := List.exists_cons_of_ne_nil (runs_ne_nil parts)
  have hmem : ∀ run ∈ first :: others, Token.star ∉ run := by
    intro run hrun
    exact star_not_mem_of_mem_runs (hruns ▸ hrun)
  obtain ⟨hfirst, hothers⟩ := List.forall_mem_cons.1 hmem
  have hparts := joinRuns_runs parts
  rw [hruns] at hparts
  rw [matchTokens, hruns, ← hparts]
  cases others with
  | nil => simp [joinRuns, ← after?_eq_some_nil_iff hfirst]
  | cons next others =>
      rw [joinRuns, cuts_append_iff hfirst]
      · dsimp only
        split
        · next hnone => simp [hnone]
        · next left hleft =>
            rw [matchBehindStars_iff (List.cons_ne_nil _ _) hothers]
            simp [hleft]
      · exact List.cons_ne_nil next others

/-! ### The inside of a bracket -/

/-- The inside of a bracket: a closing bracket stands in the first place only, or right behind an
exclamation mark there. -/
inductive Encloses : List Char → Prop where
  | plain {c : Char} {more : List Char} : c ≠ '!' → ']' ∉ more → Encloses (c :: more)
  | negated {c : Char} {more : List Char} : ']' ∉ more → Encloses ('!' :: c :: more)

/-- What stands before the first closing bracket, if there is one. -/
theorem takeWhile_eq_iff {tail more : List Char} :
    (tail.takeWhile (· != ']') = more ∧ more.length < tail.length) ↔
      ']' ∉ more ∧ ∃ rest, tail = more ++ ']' :: rest := by
  constructor
  · rintro ⟨rfl, hlt⟩
    have hsplit : tail.takeWhile (· != ']') ++ tail.dropWhile (· != ']') = tail :=
      List.takeWhile_append_dropWhile
    cases hdrop : tail.dropWhile (· != ']') with
    | nil =>
        rw [hdrop, List.append_nil] at hsplit
        rw [hsplit] at hlt
        exact absurd hlt (Nat.lt_irrefl _)
    | cons c rest =>
        have hhead := List.head_dropWhile_not (· != ']') (hdrop ▸ List.cons_ne_nil c rest)
        obtain rfl : c = ']' := by simpa [hdrop] using hhead
        refine ⟨fun hmem => ?_, rest, ?_⟩
        · simpa using List.mem_takeWhile_imp hmem
        · rw [← hdrop, hsplit]
  · rintro ⟨hmore, rest, rfl⟩
    have hall : ∀ c ∈ more, (c != ']') = true := fun c hc =>
      bne_iff_ne.mpr fun h => hmore (h ▸ hc)
    constructor
    · rw [List.takeWhile_append_of_pos hall]
      simp
    · simp

/-- The inside of a bracket that begins with `front`, whose characters cannot end it. -/
def insideFrom (front tail : List Char) : Option (List Char) :=
  if (tail.takeWhile (· != ']')).length < tail.length then
    some (front ++ tail.takeWhile (· != ']'))
  else
    none

theorem insideFrom_eq_some_iff (front tail inside : List Char) :
    insideFrom front tail = some inside ↔
      ∃ more, inside = front ++ more ∧ ']' ∉ more ∧ ∃ rest, tail = more ++ ']' :: rest := by
  rw [insideFrom, Option.ite_none_right_eq_some, Option.some.injEq]
  constructor
  · rintro ⟨hlt, rfl⟩
    exact ⟨_, rfl, takeWhile_eq_iff.mp ⟨rfl, hlt⟩⟩
  · rintro ⟨more, rfl, hmore⟩
    obtain ⟨heq, hlt⟩ := takeWhile_eq_iff.mpr hmore
    rw [heq]
    exact ⟨hlt, rfl⟩

theorem inside?_plain {c : Char} (hc : c ≠ '!') (tail : List Char) :
    inside? (c :: tail) = insideFrom [c] tail := by
  by_cases hclose : c = ']'
  · subst hclose
    simp only [inside?, insideFrom, List.length_cons, List.drop_succ_cons, List.drop_zero]
    exact if_congr (by omega) rfl rfl
  · simp [inside?, insideFrom, hc, hclose]

theorem inside?_negated (c : Char) (tail : List Char) :
    inside? ('!' :: c :: tail) = insideFrom ['!', c] tail := by
  by_cases hclose : c = ']'
  · subst hclose
    simp only [inside?, insideFrom, List.length_cons, List.drop_succ_cons, List.drop_zero]
    exact if_congr (by omega) rfl rfl
  · have hlt : 1 + ((tail.takeWhile (· != ']')).length + 1) < tail.length + 1 + 1 ↔
        (tail.takeWhile (· != ']')).length < tail.length := by
      omega
    simp [inside?, insideFrom, hclose, hlt]

/-- The search finds the inside of a bracket wherever there is one. -/
theorem inside?_eq_some_iff (cs inside : List Char) :
    inside? cs = some inside ↔ Encloses inside ∧ ∃ rest, cs = inside ++ ']' :: rest := by
  constructor
  · intro h
    cases cs with
    | nil => cases h
    | cons c tail =>
        by_cases hc : c = '!'
        · subst hc
          cases tail with
          | nil => cases h
          | cons c tail =>
              rw [inside?_negated, insideFrom_eq_some_iff] at h
              obtain ⟨more, rfl, hmore, rest, rfl⟩ := h
              exact ⟨.negated hmore, rest, rfl⟩
        · rw [inside?_plain hc, insideFrom_eq_some_iff] at h
          obtain ⟨more, rfl, hmore, rest, rfl⟩ := h
          exact ⟨.plain hc hmore, rest, rfl⟩
  · rintro ⟨hencloses, rest, rfl⟩
    cases hencloses with
    | @plain c more hc hmore =>
        rw [List.cons_append, inside?_plain hc, insideFrom_eq_some_iff]
        exact ⟨more, rfl, hmore, rest, rfl⟩
    | @negated c more hmore =>
        rw [List.cons_append, List.cons_append, inside?_negated, insideFrom_eq_some_iff]
        exact ⟨more, rfl, hmore, rest, rfl⟩

theorem inside?_of_encloses {inside : List Char} (h : Encloses inside) (rest : List Char) :
    inside? (inside ++ ']' :: rest) = some inside :=
  (inside?_eq_some_iff _ _).mpr ⟨h, rest, rfl⟩

theorem inside?_eq_none_iff (cs : List Char) :
    inside? cs = none ↔ ∀ inside rest, Encloses inside → cs ≠ inside ++ ']' :: rest := by
  rw [Option.eq_none_iff_forall_ne_some]
  constructor
  · rintro h inside rest hencloses rfl
    exact h inside (inside?_of_encloses hencloses rest)
  · intro h inside hinside
    obtain ⟨hencloses, rest, heq⟩ := (inside?_eq_some_iff _ _).mp hinside
    exact h inside rest hencloses heq

/-! ### Tokens from left to right -/

/-- The tokens of a pattern from left to right, where `means` says which bracket an inside stands
for.  A bracket that is not closed is a character like any other. -/
inductive Reads (means : List Char → Bracket) : List Char → List Token → Prop where
  | nil : Reads means [] []
  | star {rest : List Char} {parts : List Token} : Reads means rest parts →
      Reads means ('*' :: rest) (.star :: parts)
  | one {rest : List Char} {parts : List Token} : Reads means rest parts →
      Reads means ('?' :: rest) (.one :: parts)
  | bracket {inside rest : List Char} {parts : List Token} : Encloses inside →
      Reads means rest parts →
      Reads means ('[' :: (inside ++ ']' :: rest)) (.oneOf (means inside) :: parts)
  | unclosed {rest : List Char} {parts : List Token} :
      (∀ inside after, Encloses inside → rest ≠ inside ++ ']' :: after) → Reads means rest parts →
      Reads means ('[' :: rest) (.literal '[' :: parts)
  | literal {c : Char} {rest : List Char} {parts : List Token} : c ≠ '*' → c ≠ '?' → c ≠ '[' →
      Reads means rest parts → Reads means (c :: rest) (.literal c :: parts)

section Reads

variable {means : List Char → Bracket} {pattern : List Char}

theorem exists_reads (means : List Char → Bracket) (pattern : List Char) :
    ∃ parts, Reads means pattern parts := by
  induction pattern using tokens.induct with
  | case1 => exact ⟨[], .nil⟩
  | case2 rest ih =>
      obtain ⟨parts, hparts⟩ := ih
      exact ⟨_, .star hparts⟩
  | case3 rest _ ih =>
      obtain ⟨parts, hparts⟩ := ih
      exact ⟨_, .one hparts⟩
  | case4 rest hinside _ _ ih =>
      obtain ⟨parts, hparts⟩ := ih
      exact ⟨_, .unclosed ((inside?_eq_none_iff rest).mp hinside) hparts⟩
  | case5 rest inside hinside _ _ ih =>
      obtain ⟨hencloses, after, rfl⟩ := (inside?_eq_some_iff rest inside).mp hinside
      obtain ⟨parts, hparts⟩ := ih
      exact ⟨_, .bracket hencloses (by simpa using hparts)⟩
  | case6 c rest hstar hone hbracket ih =>
      obtain ⟨parts, hparts⟩ := ih
      exact ⟨_, .literal hstar hone hbracket hparts⟩

theorem Reads.unique {parts parts' : List Token} (h : Reads means pattern parts)
    (h' : Reads means pattern parts') : parts = parts' := by
  induction h generalizing parts' with
  | nil =>
      cases h'
      rfl
  | star _ ih =>
      cases h' with
      | star hrest => rw [ih hrest]
      | literal hstar => exact absurd rfl hstar
  | one _ ih =>
      cases h' with
      | one hrest => rw [ih hrest]
      | literal _ hone => exact absurd rfl hone
  | @bracket inside rest _ hencloses _ ih =>
      generalize hpattern : '[' :: (inside ++ ']' :: rest) = pattern at h'
      cases h' with
      | nil => simp at hpattern
      | star => simp at hpattern
      | one => simp at hpattern
      | @bracket inside' rest' _ hencloses' hrest =>
          have hsame : inside ++ ']' :: rest = inside' ++ ']' :: rest' := (List.cons.inj hpattern).2
          obtain rfl : inside = inside' := by
            rw [← Option.some.injEq, ← inside?_of_encloses hencloses rest, hsame,
              inside?_of_encloses hencloses' rest']
          obtain rfl : rest = rest' := by simpa using hsame
          rw [ih hrest]
      | unclosed hnone =>
          exact absurd (List.cons.inj hpattern).2.symm (hnone inside rest hencloses)
      | literal _ _ hbracket => exact absurd (List.cons.inj hpattern).1.symm hbracket
  | unclosed hnone _ ih =>
      cases h' with
      | bracket hencloses => exact absurd rfl (hnone _ _ hencloses)
      | unclosed _ hrest => rw [ih hrest]
      | literal _ _ hbracket => exact absurd rfl hbracket
  | literal hstar hone hbracket _ ih =>
      cases h' with
      | star => exact absurd rfl hstar
      | one => exact absurd rfl hone
      | bracket => exact absurd rfl hbracket
      | unclosed => exact absurd rfl hbracket
      | literal _ _ _ hrest => rw [ih hrest]

/-- Every pattern is read in exactly one way. -/
theorem existsUnique_reads (means : List Char → Bracket) (pattern : List Char) :
    ∃! parts, Reads means pattern parts := by
  obtain ⟨parts, hparts⟩ := exists_reads means pattern
  exact ⟨parts, hparts, fun parts' hparts' => hparts'.unique hparts⟩

end Reads

/-! ### Excluded paths -/

/-- Two tokens in front that take the same pieces can be exchanged. -/
theorem cuts_cons_congr {token token' : Token} {rest rest' : List Token}
    (htoken : ∀ piece, token.Takes piece ↔ token'.Takes piece)
    (hrest : ∀ text, Cuts rest text ↔ Cuts rest' text) (text : List Char) :
    Cuts (token :: rest) text ↔ Cuts (token' :: rest') text := by
  simp only [cuts_cons_iff, htoken, hrest]

theorem takes_bracketOf_iff (inside piece : List Char) :
    (Token.oneOf (bracketOf inside)).Takes piece ↔ (Token.oneOf (asRead inside)).Takes piece := by
  constructor
  · rintro ⟨⟩
    rename_i c hhas
    exact .oneOf ((has_bracketOf inside c).mp hhas)
  · rintro ⟨⟩
    rename_i c hhas
    exact .oneOf ((has_bracketOf inside c).mpr hhas)

/-- The tokens of a pattern cut a text as those of its description do. -/
theorem cuts_tokens_iff {pattern : List Char} {parts : List Token}
    (h : Reads asRead pattern parts) (text : List Char) :
    Cuts (tokens pattern) text ↔ Cuts parts text := by
  induction h generalizing text with
  | nil => rw [tokens]
  | star _ ih =>
      rw [tokens, if_pos rfl]
      exact cuts_cons_congr (fun _ => Iff.rfl) ih text
  | one _ ih =>
      rw [tokens, if_neg (by decide), if_pos rfl]
      exact cuts_cons_congr (fun _ => Iff.rfl) ih text
  | @bracket inside rest _ hencloses _ ih =>
      have hdrop : (inside ++ ']' :: rest).drop (inside.length + 1) = rest := by simp
      rw [tokens, if_neg (by decide), if_neg (by decide), if_pos rfl,
        inside?_of_encloses hencloses]
      simp only [hdrop]
      exact cuts_cons_congr (takes_bracketOf_iff inside) ih text
  | @unclosed rest _ hnone _ ih =>
      rw [tokens, if_neg (by decide), if_neg (by decide), if_pos rfl,
        (inside?_eq_none_iff rest).mpr hnone]
      exact cuts_cons_congr (fun _ => Iff.rfl) ih text
  | literal hstar hone hbracket _ ih =>
      rw [tokens, if_neg hstar, if_neg hone, if_neg hbracket]
      exact cuts_cons_congr (fun _ => Iff.rfl) ih text

theorem matchText_iff {pattern : String} {parts : List Token}
    (h : Reads asRead pattern.toList parts) (text : String) :
    matchText pattern text = true ↔ Cuts parts text.toList := by
  rw [matchText, matchTokens_iff, cuts_tokens_iff h]

/-- **Excluded paths.**  Every pattern is read from left to right in exactly one way, and a path is
excluded if and only if its whole text, or its whole last component, can be cut into one piece for
each token of some pattern. -/
theorem excludes_iff_cuts (patterns : List String) (path : Path) :
    (∀ pattern : List Char, ∃! parts, Reads asRead pattern parts) ∧
      (excludes patterns path = true ↔
        ∃ pattern ∈ patterns, ∃ parts, Reads asRead pattern.toList parts ∧
          (Cuts parts path.text.toList ∨ Cuts parts path.name.toList)) := by
  refine ⟨existsUnique_reads asRead, ?_⟩
  rw [excludes, List.any_eq_true]
  constructor
  · rintro ⟨pattern, hpattern, hmatch⟩
    obtain ⟨parts, hparts⟩ := exists_reads asRead pattern.toList
    rw [Bool.or_eq_true, matchText_iff hparts, matchText_iff hparts] at hmatch
    exact ⟨pattern, hpattern, parts, hparts, hmatch⟩
  · rintro ⟨pattern, hpattern, parts, hparts, hcuts⟩
    refine ⟨pattern, hpattern, ?_⟩
    rw [Bool.or_eq_true, matchText_iff hparts, matchText_iff hparts]
    exact hcuts

/-- Brackets are not read as they are written: in `[z-a!b]` the exclamation mark comes first once
the reversed range is dropped, so that `b` is not excluded although it stands in the bracket. -/
theorem not_excludes_iff_cuts_asWritten :
    ¬(excludes ["[z-a!b]"] (Path.ofText "b") = true ↔
      ∃ pattern ∈ ["[z-a!b]"], ∃ parts, Reads asWritten pattern.toList parts ∧
        (Cuts parts (Path.ofText "b").text.toList ∨ Cuts parts (Path.ofText "b").name.toList)) := by
  have hexcludes : excludes ["[z-a!b]"] (Path.ofText "b") = false := by decide +kernel
  have htext : (Path.ofText "b").text.toList = ['b'] := by decide +kernel
  have hreads : Reads asWritten "[z-a!b]".toList [.oneOf (asWritten ['z', '-', 'a', '!', 'b'])] :=
    @Reads.bracket asWritten ['z', '-', 'a', '!', 'b'] [] [] (.plain (by decide) (by decide)) .nil
  have hhas : (asWritten ['z', '-', 'a', '!', 'b']).Has 'b' := by
    rw [← Bracket.holds_iff]
    decide
  rw [hexcludes]
  intro h
  refine Bool.false_ne_true (h.mpr ⟨_, List.mem_singleton_self _, _, hreads, .inl ?_⟩)
  rw [htext]
  exact ⟨[['b']], rfl, .cons (.oneOf hhas) .nil⟩

end LineLint.Glob
