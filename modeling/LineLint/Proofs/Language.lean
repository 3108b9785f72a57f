/-
**The language of a text comes from the last component of its name.**

Slashes and backslashes cut a name into components, and empty components and dots do not count.
If the last component that is left goes on after a dot, and has something in front of that dot, the
language is what follows the last dot, in lower case; otherwise there is none.  So whatever stands
in front of the last component, and whichever and however many slashes stand around it, the language
is the same.

Main definitions:

* `LineLint.nameParts`, `LineLint.lastComponent` — the components of a name, and the last one;
* `LineLint.HasEnding` — **what the ending of a component is**.

Main results:

* `LineLint.Path.endingOf_eq_some_iff` — the ending that is found is the ending;
* `LineLint.languageFor_eq` — the language is worked out from the last component;
* `LineLint.lastComponent_append` — the last component of a name that is put together;
* `LineLint.languageFor_reads_last_component` — **what the language of a text is, and what it does
  not depend on**.
-/

import LineLint.Matcher
import LineLint.Proofs.Text.Case
import Mathlib.Data.List.TakeWhile

set_option relaxedAutoImplicit false
set_option autoImplicit false

namespace LineLint

/-! ### The components of a name -/

/-- Whether a character divides the components of a name. -/
def isSlash (c : Char) : Bool := c == '/' || c == '\\'

/-- The components of a name, without the empty ones and those that are a dot. -/
def nameParts (source : String) : List (List Char) :=
  (source.toList.splitOnP isSlash).filter fun part => part != [] && part != ['.']

/-- The last component of a name, if it has any. -/
def lastComponent (source : String) : Option (List Char) := (nameParts source).getLast?

/-- Reading backslashes as slashes and cutting at the slashes is cutting at both. -/
theorem splitAt_map_slash (cs : List Char) :
    Text.splitAt '/' (cs.map fun c => if c = '\\' then '/' else c) = cs.splitOnP isSlash := by
  induction cs with
  | nil => rfl
  | cons c rest ih =>
      rw [List.map_cons, Text.splitAt, List.splitOnP_cons_eq_if_modifyHead, ih]
      by_cases hc : isSlash c = true
      · have hslash : (if c = '\\' then '/' else c) = '/' := by
          rcases Bool.or_eq_true_iff.1 hc with h | h
          · simp [beq_iff_eq.1 h]
          · simp [beq_iff_eq.1 h]
        rw [if_pos hc, if_pos hslash]
      · obtain ⟨hslash, hback⟩ : c ≠ '/' ∧ c ≠ '\\' := by simpa [isSlash] using hc
        rw [if_neg hc, if_neg hback, if_neg hslash]
        cases hrest : rest.splitOnP isSlash with
        | nil => exact absurd hrest (List.splitOnP_ne_nil isSlash rest)
        | cons part parts => rfl

theorem isSlash_of_mem_splitOnP {cs part : List Char} (h : part ∈ cs.splitOnP isSlash) :
    ∀ c ∈ part, isSlash c = false := by
  induction cs generalizing part with
  | nil =>
      obtain rfl := List.mem_singleton.1 h
      exact List.forall_mem_nil _
  | cons c rest ih =>
      rw [List.splitOnP_cons_eq_if_modifyHead] at h
      by_cases hc : isSlash c = true
      · rw [if_pos hc] at h
        rcases List.mem_cons.1 h with rfl | h
        · exact List.forall_mem_nil _
        · exact ih h
      · rw [if_neg hc] at h
        obtain ⟨first, parts, hrest⟩ :=
          List.exists_cons_of_ne_nil (List.splitOnP_ne_nil isSlash rest)
        rw [hrest, List.modifyHead_cons] at h
        rcases List.mem_cons.1 h with rfl | h
        · exact List.forall_mem_cons.2
            ⟨Bool.not_eq_true _ ▸ hc, ih (hrest ▸ List.mem_cons_self)⟩
        · exact ih (hrest ▸ List.mem_cons_of_mem first h)

theorem isSlash_of_lastComponent {source : String} {name : List Char}
    (h : lastComponent source = some name) : ∀ c ∈ name, isSlash c = false :=
  isSlash_of_mem_splitOnP (List.mem_of_mem_filter (List.mem_of_getLast? h))

/-- A name that is put together at a slash has the components of both parts. -/
theorem nameParts_append {slash : String} (hslash : slash ∈ ["/", "\\"]) (above below : String) :
    nameParts (above ++ slash ++ below) = nameParts above ++ nameParts below := by
  obtain ⟨c, hc, hchars⟩ : ∃ c, isSlash c = true ∧ slash.toList = [c] := by
    rcases List.mem_pair.1 hslash with rfl | rfl
    · exact ⟨'/', rfl, rfl⟩
    · exact ⟨'\\', rfl, rfl⟩
  rw [nameParts, String.toList_append, String.toList_append, hchars, List.append_assoc,
    List.singleton_append, List.splitOnP_append_cons _ _ hc, List.filter_append]
  rfl

theorem lastComponent_append {slash : String} (hslash : slash ∈ ["/", "\\"])
    (above below : String) :
    lastComponent (above ++ slash ++ below) = (lastComponent below).or (lastComponent above) := by
  rw [lastComponent, nameParts_append hslash, List.getLast?_append]
  rfl

/-! ### The ending of a component -/

/-- What follows the last dot of a component, if something stands before it and after it. -/
def HasEnding (name ending : List Char) : Prop :=
  ∃ before, name = before ++ '.' :: ending ∧ before ≠ [] ∧ ending ≠ [] ∧ '.' ∉ ending

theorem Path.endingOf_of_dot_not_mem {name : List Char} (h : '.' ∉ name) :
    endingOf name = none := by
  have hall : name.reverse.takeWhile (· != '.') = name.reverse :=
    List.takeWhile_eq_self_iff.2 fun c hc => by
      rw [bne_iff_ne]
      rintro rfl
      exact h (List.mem_reverse.1 hc)
  simp [endingOf, hall]

theorem Path.endingOf_append_dot (before : List Char) {after : List Char} (h : '.' ∉ after) :
    endingOf (before ++ '.' :: after) =
      if before ≠ [] ∧ after ≠ [] then some after else none := by
  have hafter : (before ++ '.' :: after).reverse.takeWhile (· != '.') = after.reverse := by
    rw [List.reverse_append, List.reverse_cons, List.append_assoc,
      List.takeWhile_append_of_pos, List.singleton_append, List.takeWhile_cons_of_neg (by simp),
      List.append_nil]
    intro c hc
    rw [bne_iff_ne]
    rintro rfl
    exact h (List.mem_reverse.1 hc)
  have hlength : (before ++ '.' :: after).length - after.length - 1 = before.length := by
    rw [List.length_append, List.length_cons]
    omega
  have hshorter : after.length < (before ++ '.' :: after).length := by
    rw [List.length_append, List.length_cons]
    omega
  rw [endingOf, hafter, List.reverse_reverse, hlength, decide_eq_true hshorter, Bool.true_and]
  simp [List.length_pos_iff, and_comm]

theorem exists_last_dot {name : List Char} (h : '.' ∈ name) :
    ∃ before after, name = before ++ '.' :: after ∧ '.' ∉ after := by
  obtain ⟨after, before, hreverse, hafter⟩ := List.eq_append_cons_of_mem (List.mem_reverse.2 h)
  refine ⟨before.reverse, after.reverse, ?_, mt List.mem_reverse.1 hafter⟩
  rw [← List.reverse_reverse name, hreverse]
  simp

/-- The ending that is found is the ending. -/
theorem Path.endingOf_eq_some_iff {name ending : List Char} :
    endingOf name = some ending ↔ HasEnding name ending := by
  constructor
  · intro h
    by_cases hdot : '.' ∈ name
    · obtain ⟨before, after, rfl, hafter⟩ := exists_last_dot hdot
      rw [endingOf_append_dot before hafter] at h
      obtain ⟨⟨hbefore, hending⟩, hsame⟩ := Option.ite_none_right_eq_some.1 h
      cases hsame
      exact ⟨before, rfl, hbefore, hending, hafter⟩
    · rw [endingOf_of_dot_not_mem hdot] at h
      cases h
  · rintro ⟨before, rfl, hbefore, hending, hdot⟩
    rw [endingOf_append_dot before hdot, if_pos ⟨hbefore, hending⟩]

/-! ### The language -/

/-- The language is worked out from the last component alone. -/
theorem languageFor_eq (source : String) :
    languageFor source =
      ((lastComponent source).bind Path.endingOf).map fun ending =>
        Text.lower (String.ofList ending) := by
  have hcomponents : Path.components (source.toList.map fun c => if c = '\\' then '/' else c) =
      (nameParts source).map String.ofList := by
    rw [Path.components, splitAt_map_slash, nameParts]
  rw [languageFor, Path.ofText, Path.ending, Path.name, String.toList_ofList, hcomponents,
    List.getLast?_map, ← lastComponent]
  cases lastComponent source with
  | none => rfl
  | some name => simp [Function.comp_def]

theorem languageFor_eq_some_iff {source language : String} :
    languageFor source = some language ↔
      ∃ name ending, lastComponent source = some name ∧ HasEnding name ending ∧
        language = Text.lower (String.ofList ending) := by
  rw [languageFor_eq, Option.map_eq_some_iff]
  constructor
  · rintro ⟨ending, hbind, rfl⟩
    obtain ⟨name, hname, hending⟩ := Option.bind_eq_some_iff.1 hbind
    exact ⟨name, ending, hname, Path.endingOf_eq_some_iff.1 hending, rfl⟩
  · rintro ⟨name, ending, hname, hending, rfl⟩
    exact ⟨ending, Option.bind_eq_some_iff.2 ⟨name, hname, Path.endingOf_eq_some_iff.2 hending⟩,
      rfl⟩

/-- A language is not empty, and has no dot and no slash in it. -/
theorem languageFor_pure {source language : String} (h : languageFor source = some language) :
    language ≠ "" ∧ ∀ c ∈ ['.', '/', '\\'], c ∉ language.toList := by
  obtain ⟨name, ending, hname, ⟨before, rfl, -, hending, hdot⟩, rfl⟩ :=
    languageFor_eq_some_iff.1 h
  constructor
  · intro hempty
    rw [Text.lower_eq_empty_iff, ← String.toList_inj, String.toList_ofList] at hempty
    exact hending hempty
  · intro c hc hmem
    have hsign : c.toNat < 97 ∧ (c = '.' ∨ isSlash c = true) := by
      simp only [List.mem_cons, List.not_mem_nil, or_false] at hc
      rcases hc with rfl | rfl | rfl
      · decide
      · decide
      · decide
    rcases Text.mem_or_le_of_mem_lower hmem with hmem | hle
    · rw [String.toList_ofList] at hmem
      have hslash : isSlash c = false := isSlash_of_lastComponent hname c (by simp [hmem])
      rcases hsign.2 with rfl | htrue
      · exact hdot hmem
      · exact Bool.false_ne_true (hslash.symm.trans htrue)
    · exact absurd hsign.1 (Nat.not_lt.2 hle)

theorem languageFor_congr {source other : String}
    (h : lastComponent other = lastComponent source) : languageFor other = languageFor source := by
  rw [languageFor_eq, languageFor_eq, h]

/-- A scan without a language is one with the language of the name. -/
theorem Matcher.scan_of_languageFor {source language : String}
    (h : languageFor source = some language) (matcher : Matcher) (text : String) :
    matcher.scan source text = matcher.scan source text (some language) := by
  have hchosen : chosenLanguage source none = chosenLanguage source (some language) := by
    rw [chosenLanguage, chosenLanguage, h]
    rfl
  rw [scan, scan, hchosen]

/-- **The language of a text is the ending of the last component of its name, in lower case.**
There is none if that component has no ending, or there is no component.  A language is not empty
and has no dot or slash in it, and to give it to a scan makes no difference.  Nor does anything but
the last component: no directories in front of it, no slashes that are doubled or that stand at the
end, and no slashes in place of backslashes. -/
theorem languageFor_reads_last_component (source : String) :
    (∀ language, languageFor source = some language ↔
      ∃ name ending, lastComponent source = some name ∧ HasEnding name ending ∧
        language = Text.lower (String.ofList ending)) ∧
    (languageFor source = none ↔
      ∀ name ending, lastComponent source = some name → ¬HasEnding name ending) ∧
    (∀ language, languageFor source = some language →
      (language ≠ "" ∧ ∀ c ∈ ['.', '/', '\\'], c ∉ language.toList) ∧
        ∀ (matcher : Matcher) (text : String),
          matcher.scan source text = matcher.scan source text (some language)) ∧
    (∀ other, lastComponent other = lastComponent source →
      languageFor other = languageFor source) ∧
    ∀ slash ∈ ["/", "\\"],
      languageFor (source ++ slash) = languageFor source ∧
      (∀ directory, lastComponent source ≠ none →
        languageFor (directory ++ slash ++ source) = languageFor source) ∧
      ∀ slash' ∈ ["/", "\\"], ∀ below,
        languageFor (source ++ slash ++ slash' ++ below) = languageFor (source ++ slash ++ below) ∧
        languageFor (source ++ slash ++ below) = languageFor (source ++ slash' ++ below) := by
  refine ⟨fun _ => languageFor_eq_some_iff, ?_,
    fun language h => ⟨languageFor_pure h, Matcher.scan_of_languageFor h⟩,
    fun _ => languageFor_congr, fun slash hslash => ?_⟩
  · rw [Option.eq_none_iff_forall_ne_some]
    constructor
    · intro hnone name ending hname hending
      exact hnone _ (languageFor_eq_some_iff.2 ⟨name, ending, hname, hending, rfl⟩)
    · intro hno language hlanguage
      obtain ⟨name, ending, hname, hending, -⟩ := languageFor_eq_some_iff.1 hlanguage
      exact hno name ending hname hending
  · have htrailing (above : String) : lastComponent (above ++ slash) = lastComponent above := by
      have happend := lastComponent_append hslash above ""
      rwa [String.append_empty] at happend
    refine ⟨languageFor_congr (htrailing source), fun directory hsome => ?_,
      fun slash' hslash' below => ⟨?_, ?_⟩⟩
    · obtain ⟨name, hname⟩ := Option.ne_none_iff_exists'.1 hsome
      refine languageFor_congr ?_
      rw [lastComponent_append hslash, hname]
      rfl
    · refine languageFor_congr ?_
      rw [lastComponent_append hslash', htrailing, lastComponent_append hslash]
    · refine languageFor_congr ?_
      rw [lastComponent_append hslash, lastComponent_append hslash']

/-- A script below a directory with a dot in its name. -/
theorem languageFor_below_directory :
    lastComponent "App.JS" ≠ none ∧
      languageFor "App.JS" = some "js" ∧
      languageFor ("lib.v2" ++ "\\" ++ "App.JS") = languageFor "App.JS" ∧
      languageFor ("App.JS" ++ "/" ++ "\\" ++ ".") = languageFor ("App.JS" ++ "/" ++ ".") ∧
      "js" ≠ "" ∧
      ∀ (matcher : Matcher) (text : String),
        matcher.scan "App.JS" text = matcher.scan "App.JS" text (some "js") := by
  have hlast : lastComponent "App.JS" = some ("App".toList ++ '.' :: "JS".toList) := by
    decide +kernel
  have hsome : lastComponent "App.JS" ≠ none := by
    rw [hlast]
    exact Option.some_ne_none _
  have hending : HasEnding ("App".toList ++ '.' :: "JS".toList) "JS".toList :=
    ⟨"App".toList, rfl, by decide, by decide, by decide⟩
  obtain ⟨hlanguage, -, hgiven, -, hslashes⟩ := languageFor_reads_last_component "App.JS"
  have hjs : languageFor "App.JS" = some "js" :=
    (hlanguage "js").2 ⟨_, _, hlast, hending, by decide +kernel⟩
  obtain ⟨⟨hne, -⟩, hscan⟩ := hgiven "js" hjs
  exact ⟨hsome, hjs, (hslashes "\\" (by decide)).2.1 "lib.v2" hsome,
    ((hslashes "/" (by decide)).2.2 "\\" (by decide) ".").1, hne, hscan⟩

end LineLint
