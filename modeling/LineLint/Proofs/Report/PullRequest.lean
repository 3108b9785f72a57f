/-
**The report on a pull request is a list of sections.**

There is a section for every text with issues.  It shows the first issues of its text and counts
those that it hides, so that the sections together account for every issue.  The issues of different
texts may come in any order among each other.

Main definitions:

* `LineLint.Report.Preview`, `LineLint.Report.Section` — an issue as it is shown, and a section;
* `LineLint.Report.Section.Covers` — a section shows the first issues of its text and counts the
  others;
* `LineLint.Report.Early` — only a few issues of the same text come before an issue.

Main results:

* `LineLint.Report.sum_length_sources` — no issue is in two sections, and each is in one;
* `LineLint.Report.shown_iff_early` — the issues that are shown, by their place among all issues;
* `LineLint.Report.pullRequest_eq_sections` — the report is that of the sections;
* `LineLint.Report.pullRequest_shows_sections` — **what the report shows, and when there is none**.
-/

import LineLint.Proofs.Report.Severities
import LineLint.Proofs.Text.Order
import Mathlib

set_option relaxedAutoImplicit false
set_option autoImplicit false

namespace LineLint.Report

variable {issues : List Issue} {issue : Issue} {limit : Nat} {source : String}

/-! ### Sections -/

/-- An issue as a report shows it: its severity is known. -/
structure Preview where
  issue : Issue
  severity : Severity
  named : severity.name = issue.severity

/-- The line of an issue that is shown. -/
def Preview.line (preview : Preview) : String :=
  "   " ++ styled (colour preview.severity) (preview.severity.name ++ ":") ++ " " ++
    preview.issue.message ++ " (line " ++ preview.issue.line.text ++ ")"

/-- The part of a report that is about one text. -/
structure Section where
  source : String
  shown : List Preview
  /-- The number of issues that are not shown. -/
  hidden : Nat

namespace Section

/-- The lines of a section: an empty one, the heading, the issues, and how many more there are if
there are any. -/
def lines (part : Section) : List String :=
  ["", "📄 " ++ part.source] ++ part.shown.map Preview.line ++
    if 0 < part.hidden then ["   ... " ++ Text.natural part.hidden ++ " more"] else []

/-- A section shows the first issues of its text, as many as the limit allows, and hides the
others. -/
structure Covers (limit : Nat) (issues : List Issue) (part : Section) : Prop where
  first : part.shown.map Preview.issue <+: issues.filter (fun issue => issue.source == part.source)
  length_shown : part.shown.length =
    min limit (issues.filter fun issue => issue.source == part.source).length
  hidden_eq : part.hidden =
    (issues.filter fun issue => issue.source == part.source).length - limit

/-- What a section shows and what it hides are the issues of its text. -/
theorem Covers.length_add_hidden {part : Section} (h : part.Covers limit issues) :
    part.shown.length + part.hidden =
      (issues.filter fun issue => issue.source == part.source).length := by
  rw [h.length_shown, h.hidden_eq]
  omega

end Section

/-! ### Texts and their issues -/

theorem nodup_sources (issues : List Issue) : (sources issues).Nodup := by
  refine (Text.pairwise_idxOf_eraseDups _).imp ?_
  rintro a b hlt rfl
  exact Nat.lt_irrefl _ hlt

theorem mem_sources_iff : source ∈ sources issues ↔ ∃ issue ∈ issues, issue.source = source := by
  rw [sources, List.mem_eraseDups, List.mem_map]

/-- No issue is of two texts, and each is of one. -/
theorem sum_length_sources (issues : List Issue) :
    ((sources issues).map fun source =>
      (issues.filter fun issue => issue.source == source).length).sum = issues.length := by
  have hperm : (sources issues).Perm (issues.map Issue.source).dedup := by
    refine (List.perm_ext_iff_of_nodup (nodup_sources issues) (List.nodup_dedup _)).2 ?_
    intro source
    rw [sources, List.mem_eraseDups, List.mem_dedup]
  have hcount (source : String) : (issues.filter fun issue => issue.source == source).length =
      (issues.map Issue.source).count source := by
    rw [List.count, List.countP_map, List.countP_eq_length_filter]
    rfl
  calc ((sources issues).map fun source =>
        (issues.filter fun issue => issue.source == source).length).sum
      = ((sources issues).map fun source => (issues.map Issue.source).count source).sum := by
        simp only [hcount]
    _ = ((issues.map Issue.source).dedup.map fun source =>
          (issues.map Issue.source).count source).sum := (hperm.map _).sum_eq
    _ = (issues.map Issue.source).length := List.sum_map_count_dedup_eq_length _
    _ = issues.length := List.length_map _

/-! ### Issues that are shown -/

/-- An issue with a place before which there are less issues of its text than the limit. -/
def Early (limit : Nat) (issues : List Issue) (issue : Issue) : Prop :=
  ∃ place, issues[place]? = some issue ∧
    ((issues.take place).filter fun other => other.source == issue.source).length < limit

/-- The first items with a property are those with less of them before. -/
theorem mem_take_filter_iff {α : Type} {p : α → Bool} {items : List α} {item : α} :
    item ∈ (items.filter p).take limit ↔
      ∃ place, items[place]? = some item ∧ p item = true ∧
        ((items.take place).filter p).length < limit := by
  induction items generalizing limit with
  | nil => simp
  | cons first items ih =>
      constructor
      · intro h
        by_cases hfirst : p first = true
        · rw [List.filter_cons_of_pos hfirst] at h
          cases limit with
          | zero => simp at h
          | succ limit =>
              rw [List.take_succ_cons] at h
              rcases List.mem_cons.1 h with rfl | h
              · exact ⟨0, by simp, hfirst, by simp⟩
              · obtain ⟨place, hplace, hitem, hlt⟩ := ih.1 h
                exact ⟨place + 1, by simpa using hplace, hitem, by simpa [hfirst] using hlt⟩
        · rw [List.filter_cons_of_neg hfirst] at h
          obtain ⟨place, hplace, hitem, hlt⟩ := ih.1 h
          exact ⟨place + 1, by simpa using hplace, hitem, by simpa [hfirst] using hlt⟩
      · rintro ⟨place, hplace, hitem, hlt⟩
        cases place with
        | zero =>
            have hself : first = item := by simpa using hplace
            obtain ⟨limit, rfl⟩ := Nat.exists_eq_add_one_of_ne_zero (Nat.ne_zero_of_lt hlt)
            subst hself
            simp [List.filter_cons_of_pos hitem]
        | succ place =>
            have hplace : items[place]? = some item := by simpa using hplace
            by_cases hfirst : p first = true
            · simp only [List.take_succ_cons, List.filter_cons_of_pos hfirst,
                List.length_cons] at hlt
              obtain ⟨limit, rfl⟩ := Nat.exists_eq_add_one_of_ne_zero (Nat.ne_zero_of_lt hlt)
              rw [List.filter_cons_of_pos hfirst, List.take_succ_cons]
              exact List.mem_cons_of_mem _ (ih.2 ⟨place, hplace, hitem, by omega⟩)
            · simp only [List.take_succ_cons, List.filter_cons_of_neg hfirst] at hlt
              rw [List.filter_cons_of_neg hfirst]
              exact ih.2 ⟨place, hplace, hitem, hlt⟩

/-- The issues that are shown, by their place among all issues. -/
theorem shown_iff_early : Shown limit issues issue ↔ Early limit issues issue := by
  have hshown : Shown limit issues issue ↔
      issue ∈ (issues.filter fun other => other.source == issue.source).take limit := Iff.rfl
  rw [hshown, mem_take_filter_iff]
  simp [Early]

/-! ### The report -/

theorem Preview.previewLine_eq (preview : Preview) :
    previewLine preview.issue = .ok preview.line := by
  have hseverity : preview.issue.severity? = .ok preview.severity := by
    rw [Issue.severity?, ← preview.named, Severity.ofName?_name]
  rw [previewLine, hseverity, Preview.line, preview.named]
  rfl

theorem previewLines_previews (previews : List Preview) :
    previewLines (previews.map Preview.issue) = .ok (previews.map Preview.line) := by
  induction previews with
  | nil => rfl
  | cons preview previews ih =>
      rw [List.map_cons, previewLines, preview.previewLine_eq, ih]
      rfl

/-- Issues with known severities can be shown. -/
theorem exists_previews (h : ∀ issue ∈ issues, issue.Known) :
    ∃ previews : List Preview, previews.map Preview.issue = issues := by
  induction issues with
  | nil => exact ⟨[], rfl⟩
  | cons issue issues ih =>
      obtain ⟨hissue, hissues⟩ := List.forall_mem_cons.1 h
      obtain ⟨severity, hseverity⟩ := (Issue.known_iff issue).1 hissue
      obtain ⟨previews, rfl⟩ := ih hissues
      exact ⟨⟨issue, severity, Severity.name_of_ofName? hseverity⟩ :: previews, rfl⟩

/-- The line about hidden issues is there if there are any. -/
theorem hiddenLines_eq (count limit : Nat) :
    hiddenLines ((count : Int) - (limit : Int)) =
      if 0 < count - limit then ["   ... " ++ Text.natural (count - limit) ++ " more"] else [] := by
  unfold hiddenLines
  by_cases hlt : limit < count
  · have hint : (count : Int) - (limit : Int) = .ofNat (count - limit) := by
      rw [Int.ofNat_eq_natCast]
      omega
    rw [if_pos (by omega), if_pos (by omega), hint]
    rfl
  · rw [if_neg (by omega), if_neg (by omega)]

/-- The lines of a text are those of a section that covers it. -/
theorem Section.Covers.groupLines_eq {part : Section} (h : part.Covers limit issues) :
    groupLines limit part.source (issues.filter fun issue => issue.source == part.source) =
      .ok part.lines := by
  have hshown : upTo (limit : Int) (issues.filter fun issue => issue.source == part.source) =
      part.shown.map Preview.issue := by
    have hlength := h.length_shown
    rw [List.prefix_iff_eq_take.1 h.first, List.length_map, hlength, ← List.take_eq_take_min]
    rfl
  rw [groupLines, hshown, previewLines_previews, hiddenLines_eq, ← h.hidden_eq]
  rfl

theorem allGroupLines_eq {parts : List Section} (h : ∀ part ∈ parts, part.Covers limit issues) :
    allGroupLines limit (parts.map fun part =>
      (part.source, issues.filter fun issue => issue.source == part.source)) =
        .ok (parts.flatMap Section.lines) := by
  induction parts with
  | nil => rfl
  | cons part parts ih =>
      obtain ⟨hpart, hparts⟩ := List.forall_mem_cons.1 h
      rw [List.map_cons, allGroupLines, hpart.groupLines_eq, ih hparts, List.flatMap_cons]
      rfl

/-- A section covers the issues of a text if their severities are known. -/
theorem exists_covers (h : ∀ issue ∈ issues, issue.Known) (limit : Nat) (source : String) :
    ∃ part : Section, part.source = source ∧ part.Covers limit issues := by
  have hfirst : (issues.filter fun issue => issue.source == source).take limit <+:
      issues.filter fun issue => issue.source == source := List.take_prefix limit _
  obtain ⟨previews, hpreviews⟩ := exists_previews fun issue hissue =>
    h issue (List.mem_of_mem_filter (hfirst.subset hissue))
  have hlength : previews.length =
      min limit (issues.filter fun issue => issue.source == source).length := by
    rw [← List.length_map Preview.issue, hpreviews, List.length_take]
  refine ⟨⟨source, previews, (issues.filter fun issue => issue.source == source).length - limit⟩,
    rfl, ?_⟩
  exact ⟨hpreviews ▸ hfirst, hlength, rfl⟩

theorem exists_sections (h : ∀ issue ∈ issues, issue.Known) (limit : Nat) (sources : List String) :
    ∃ parts : List Section, parts.map Section.source = sources ∧
      ∀ part ∈ parts, part.Covers limit issues := by
  induction sources with
  | nil => exact ⟨[], rfl, by simp⟩
  | cons source sources ih =>
      obtain ⟨part, rfl, hpart⟩ := exists_covers h limit source
      obtain ⟨parts, rfl, hparts⟩ := ih
      exact ⟨part :: parts, rfl, List.forall_mem_cons.2 ⟨hpart, hparts⟩⟩

/-- The report is that of sections for the texts, in their order, that cover the issues. -/
theorem pullRequest_eq_sections {parts : List Section}
    (hsources : parts.map Section.source = sources issues)
    (hcovers : ∀ part ∈ parts, part.Covers limit issues) :
    pullRequest issues limit = .ok (Text.join "\n"
      ([styled .bold "🔍 Linting PR..."] ++ parts.flatMap Section.lines ++
        ["", styled .green ("✅ Found " ++ Text.natural issues.length ++ " lint issues")])) := by
  have hgrouped : grouped issues = parts.map fun part =>
      (part.source, issues.filter fun issue => issue.source == part.source) := by
    rw [grouped, ← hsources, List.map_map]
    rfl
  rw [pullRequest, hgrouped, allGroupLines_eq hcovers]
  rfl

/-! ### No report -/

theorem error_of_previewLine {error : UnknownSeverity} (h : previewLine issue = .error error) :
    ¬issue.Known ∧ error.name = issue.severity := by
  rcases error_of_bind_eq_error h with h | ⟨severity, -, h⟩
  · have hunknown : ¬issue.Known := by
      rw [← issue.isOk_severity?, h]
      exact nofun
    rw [Issue.severity?, Issue.ofName?_of_not_known hunknown] at h
    cases h
    exact ⟨hunknown, rfl⟩
  · cases h

theorem error_of_previewLines {error : UnknownSeverity} (h : previewLines issues = .error error) :
    ∃ issue ∈ issues, ¬issue.Known ∧ error.name = issue.severity := by
  induction issues with
  | nil => cases h
  | cons issue issues ih =>
      rcases error_of_bind_eq_error h with h | ⟨line, -, h⟩
      · exact ⟨issue, List.mem_cons_self, error_of_previewLine h⟩
      · rcases error_of_bind_eq_error h with h | ⟨lines, -, h⟩
        · obtain ⟨bad, hbad, hunknown⟩ := ih h
          exact ⟨bad, List.mem_cons_of_mem _ hbad, hunknown⟩
        · cases h

theorem error_of_allGroupLines {error : UnknownSeverity} {limit : Int}
    {groups : List (String × List Issue)} (h : allGroupLines limit groups = .error error) :
    ∃ group ∈ groups, previewLines (upTo limit group.2) = .error error := by
  induction groups with
  | nil => cases h
  | cons group groups ih =>
      rcases error_of_bind_eq_error h with h | ⟨lines, -, h⟩
      · rcases error_of_bind_eq_error h with h | ⟨shown, -, h⟩
        · exact ⟨group, List.mem_cons_self, h⟩
        · cases h
      · rcases error_of_bind_eq_error h with h | ⟨others, -, h⟩
        · obtain ⟨bad, hbad, hfault⟩ := ih h
          exact ⟨bad, List.mem_cons_of_mem _ hbad, hfault⟩
        · cases h

/-- If there is no report, then because of an issue that would be shown. -/
theorem error_of_pullRequest {error : UnknownSeverity}
    (h : pullRequest issues limit = .error error) :
    ∃ issue, Early limit issues issue ∧ ¬issue.Known ∧ error.name = issue.severity := by
  rcases error_of_bind_eq_error h with h | ⟨groups, -, h⟩
  · obtain ⟨group, hgroup, hlines⟩ := error_of_allGroupLines h
    obtain ⟨source, -, rfl⟩ := List.mem_map.1 hgroup
    obtain ⟨issue, hissue, hunknown, hname⟩ := error_of_previewLines hlines
    have hsource : issue.source = source := by
      simpa using (List.mem_filter.1 (mem_of_mem_upTo hissue)).2
    subst hsource
    exact ⟨issue, shown_iff_early.1 hissue, hunknown, hname⟩
  · cases h

/-! ### What is shown -/

/-- **What the report on a pull request shows.**  If all severities are known, it has one section
for each text, in the order of the first issues; each shows the first issues of its text up to the
limit, and says how many more there are; together they account for all issues, whose number stands
in the last line.  There is no report exactly if one of the issues that would be shown has a
severity that is not known, and the fault names such a severity. -/
theorem pullRequest_shows_sections (issues : List Issue) (limit : Nat) :
    ((∀ issue ∈ issues, issue.Known) → ∃ parts : List Section,
      pullRequest issues limit = .ok (Text.join "\n"
        ([styled .bold "🔍 Linting PR..."] ++ parts.flatMap Section.lines ++
          ["", styled .green ("✅ Found " ++ Text.natural issues.length ++ " lint issues")])) ∧
      (parts.map Section.source).Nodup ∧
      (∀ source, source ∈ parts.map Section.source ↔ ∃ issue ∈ issues, issue.source = source) ∧
      (parts.map Section.source).Pairwise (fun a b =>
        (issues.map Issue.source).idxOf a < (issues.map Issue.source).idxOf b) ∧
      (∀ part ∈ parts, part.Covers limit issues) ∧
      (parts.map fun part => part.shown.length + part.hidden).sum = issues.length) ∧
    ((∃ error, pullRequest issues limit = .error error) ↔
      ∃ issue, Early limit issues issue ∧ ¬issue.Known) ∧
    ∀ error, pullRequest issues limit = .error error →
      ∃ issue, Early limit issues issue ∧ ¬issue.Known ∧ error.name = issue.severity := by
  refine ⟨?_, ?_, fun error => error_of_pullRequest⟩
  · intro hknown
    obtain ⟨parts, hsources, hcovers⟩ := exists_sections hknown limit (sources issues)
    refine ⟨parts, pullRequest_eq_sections hsources hcovers, ?_, ?_, ?_, hcovers, ?_⟩
    · rw [hsources]
      exact nodup_sources issues
    · intro source
      rw [hsources, mem_sources_iff]
    · rw [hsources]
      exact Text.pairwise_idxOf_eraseDups _
    · calc (parts.map fun part => part.shown.length + part.hidden).sum
          = (parts.map fun part =>
              (issues.filter fun issue => issue.source == part.source).length).sum := by
            rw [List.map_congr_left fun part hpart => (hcovers part hpart).length_add_hidden]
        _ = ((parts.map Section.source).map fun source =>
              (issues.filter fun issue => issue.source == source).length).sum := by
            rw [List.map_map]
            rfl
        _ = issues.length := by rw [hsources, sum_length_sources]
  · rw [← isOk_eq_false_iff, ← Bool.not_eq_true, isOk_pullRequest]
    simp only [not_forall, shown_iff_early, exists_prop]

/-- Issues of two texts take turns; one of each is shown, and one text has two more. -/
theorem pullRequest_shows_sections_interleaved :
    let issueOf (source severity : String) (line : Int) : Issue :=
      { source := source, line := .number line, column := .number 1, message := "m"
        severity := severity, ruleId := "r" }
    let issues := [issueOf "b.js" "info" 1, issueOf "a.js" "error" 1, issueOf "b.js" "warning" 2,
      issueOf "b.js" "info" 3]
    (∀ issue ∈ issues, issue.Known) ∧ ∃ parts : List Section,
      parts.map Section.source = ["b.js", "a.js"] ∧ parts.map Section.hidden = [2, 0] ∧
      pullRequest issues 1 = .ok (Text.join "\n"
        ([styled .bold "🔍 Linting PR..."] ++ parts.flatMap Section.lines ++
          ["", styled .green ("✅ Found " ++ Text.natural 4 ++ " lint issues")])) := by
  intro issueOf issues
  have hknown : ∀ issue ∈ issues, issue.Known := by decide
  obtain ⟨parts, hreport, hnodup, hmem, horder, hcovers, hsum⟩ :=
    (pullRequest_shows_sections issues 1).1 hknown
  have hsources : parts.map Section.source = ["b.js", "a.js"] := by
    refine horder.eq_of_mem_iff (by decide) fun source => ?_
    have htexts : source ∈ issues.map Issue.source ↔ source ∈ ["b.js", "a.js"] := by
      simp [issues, issueOf]
      tauto
    rw [hmem, ← htexts, List.mem_map]
  have hhidden : parts.map Section.hidden = (parts.map Section.source).map fun source =>
      (issues.filter fun issue => issue.source == source).length - 1 := by
    rw [List.map_map]
    exact List.map_congr_left fun part hpart => (hcovers part hpart).hidden_eq
  exact ⟨hknown, parts, hsources, by rw [hhidden, hsources]; decide, hreport⟩

end LineLint.Report
