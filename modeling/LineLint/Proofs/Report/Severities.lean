/-
**Reports fail only on severities that are not known.**

A summary and the report for people look at every issue; the report on a pull request looks only at
those that it shows.  Each of them fails exactly if one of the issues that it looks at has a
severity that is not known.  The issues of a scan have the severities of their rules, which are
known in every rule set that can be made.

Main definitions:

* `LineLint.Report.Shown` — an issue that the report on a pull request shows;
* `LineLint.RuleSet.Known` — the severities of all rules are known.

Main results:

* `LineLint.Findings.isOk_summary`, `LineLint.Report.isOk_human`,
  `LineLint.Report.isOk_pullRequest` — **which reports can be made**;
* `LineLint.Findings.exists_summary` — what a summary counts;
* `LineLint.Findings.exitCode_of_known` — the exit code says whether there is an error;
* `LineLint.RuleSet.known_of_ofRules`, `LineLint.RuleSet.Known.scans` — **the severities in a scan
  are known**.
-/

import LineLint.Proofs.Fallible
import LineLint.Proofs.Payload.RoundTrip
import LineLint.Proofs.Rules.Faults
import LineLint.Report.PullRequest
import LineLint.Scan
import LineLint.Source

set_option relaxedAutoImplicit false
set_option autoImplicit false

namespace LineLint

/-! ### Counts -/

theorem Issue.isOk_severity? (issue : Issue) : issue.severity?.isOk = true ↔ issue.Known := by
  rw [Issue.known_iff, Issue.severity?]
  cases Severity.ofName? issue.severity <;> simp

theorem Issue.name_of_severity? {issue : Issue} {severity : Severity}
    (h : issue.severity? = .ok severity) : severity.name = issue.severity := by
  unfold Issue.severity? at h
  split at h
  · next hname =>
      cases h
      exact Severity.name_of_ofName? hname
  · cases h

namespace Findings

theorem severities_eq_mapM (issues : List Issue) :
    severities issues = issues.mapM Issue.severity? := by
  induction issues with
  | nil => rfl
  | cons issue issues ih => rw [severities, ih, List.mapM_cons]

/-- Counting succeeds if all severities are known. -/
theorem isOk_summary (findings : Findings) :
    findings.summary.isOk = true ↔ ∀ issue ∈ findings.issues, issue.Known := by
  rw [summary, isOk_bind_ok, severities_eq_mapM, isOk_mapM, List.all_eq_true]
  exact forall₂_congr fun issue _ => issue.isOk_severity?

theorem isOk_hasErrors (findings : Findings) :
    findings.hasErrors.isOk = findings.summary.isOk :=
  isOk_bind_ok findings.summary _

/-- Some severity among those of some issues is `error` if that is the name in one of them. -/
theorem mem_severities_iff {issues : List Issue} {found : List Severity}
    (h : severities issues = .ok found) (severity : Severity) :
    severity ∈ found ↔ ∃ issue ∈ issues, issue.severity = severity.name := by
  rw [severities_eq_mapM, mapM_eq_ok_iff] at h
  induction h with
  | nil => simp
  | @cons issue first issues found hfirst _ ih =>
      have hname : issue.severity = severity.name ↔ severity = first := by
        rw [← Issue.name_of_severity? hfirst]
        cases first <;> cases severity <;> decide
      simp [ih, hname]

/-- There are errors if the severity of some issue is `error`. -/
theorem hasErrors_of_known {findings : Findings} (h : ∀ issue ∈ findings.issues, issue.Known) :
    findings.hasErrors = .ok (decide (∃ issue ∈ findings.issues, issue.severity = "error")) := by
  obtain ⟨summary, hsummary⟩ := isOk_eq_true_iff.1 (findings.isOk_summary.2 h)
  obtain ⟨found, hfound, hcounts⟩ := exists_of_bind_eq_ok hsummary
  have herrors : 0 < summary.errors ↔ ∃ issue ∈ findings.issues, issue.severity = "error" := by
    cases hcounts
    rw [List.count_pos_iff]
    exact mem_severities_iff hfound .error
  simp only [hasErrors, hsummary, ← herrors]
  rfl

theorem count_of_severities {issues : List Issue} {found : List Severity}
    (h : severities issues = .ok found) (severity : Severity) :
    found.count severity = issues.countP fun issue => issue.severity == severity.name := by
  rw [severities_eq_mapM, mapM_eq_ok_iff] at h
  induction h with
  | nil => rfl
  | @cons issue first issues found hfirst _ ih =>
      have hname : (issue.severity == severity.name) = (first == severity) := by
        rw [← Issue.name_of_severity? hfirst]
        cases first <;> cases severity <;> decide
      rw [List.count_cons, List.countP_cons, ih, hname]

/-- There are three severities, so the counts of the three add up. -/
theorem count_add_count_add_count (found : List Severity) :
    found.count .error + found.count .warning + found.count .info = found.length := by
  induction found with
  | nil => rfl
  | cons first found ih =>
      rw [List.length_cons, ← ih]
      cases first <;> simp <;> omega

/-- What a summary counts: every severity, and all issues, each of which has one severity. -/
theorem exists_summary {findings : Findings} (h : ∀ issue ∈ findings.issues, issue.Known) :
    ∃ summary, findings.summary = .ok summary ∧
      (∀ severity, summary.count severity =
        findings.issues.countP fun issue => issue.severity == severity.name) ∧
      summary.errors + summary.warnings + summary.infos = summary.total ∧
      summary.total = findings.issues.length := by
  obtain ⟨summary, hsummary⟩ := isOk_eq_true_iff.1 (findings.isOk_summary.2 h)
  obtain ⟨found, hfound, hcounts⟩ := exists_of_bind_eq_ok hsummary
  have hlength : findings.issues.length = found.length := by
    have hfound := hfound
    rw [severities_eq_mapM, mapM_eq_ok_iff] at hfound
    exact hfound.length_eq
  cases hcounts
  refine ⟨_, hsummary, fun severity => ?_, ?_, rfl⟩
  · rw [← count_of_severities hfound severity]
    cases severity <;> rfl
  · rw [hlength]
    exact count_add_count_add_count found

/-- The exit code is one if some issue is an error, else zero. -/
theorem exitCode_of_known {findings : Findings} (h : ∀ issue ∈ findings.issues, issue.Known) :
    findings.exitCode =
      .ok (if ∃ issue ∈ findings.issues, issue.severity = "error" then 1 else 0) := by
  rw [exitCode, hasErrors_of_known h]
  simp [bind, Except.bind, pure, Except.pure]

end Findings

/-! ### Reports -/

namespace Report

theorem isOk_issueLines (issue : Issue) : (issueLines issue).isOk = true ↔ issue.Known := by
  rw [issueLines, ← issue.isOk_severity?]
  cases issue.severity? <;> rfl

theorem isOk_allIssueLines (issues : List Issue) :
    (allIssueLines issues).isOk = true ↔ ∀ issue ∈ issues, issue.Known := by
  induction issues with
  | nil => simp [allIssueLines]
  | cons issue issues ih =>
      rw [List.forall_mem_cons, ← isOk_issueLines, ← ih, ← Bool.and_eq_true]
      exact Eq.congr_left (isOk_bind_bind_ok (issueLines issue) (allIssueLines issues) _)

/-- The report for people can be made if all severities are known. -/
theorem isOk_human (findings : Findings) :
    (human findings).isOk = true ↔ ∀ issue ∈ findings.issues, issue.Known := by
  rw [← findings.isOk_summary, human]
  cases hsummary : findings.summary with
  | error e => rfl
  | ok summary =>
      have hknown : ∀ issue ∈ findings.issues, issue.Known :=
        findings.isOk_summary.1 (by rw [hsummary]; rfl)
      obtain ⟨lines, hlines⟩ := isOk_eq_true_iff.1 ((isOk_allIssueLines findings.issues).2 hknown)
      by_cases hempty : findings.issues.isEmpty = true <;>
        simp [bind, Except.bind, pure, Except.pure, hempty, hlines]

/-- An issue that the report on a pull request shows: it is among the first ones of its text. -/
def Shown (limit : Int) (issues : List Issue) (issue : Issue) : Prop :=
  issue ∈ upTo limit (issues.filter (fun other => other.source == issue.source))

theorem mem_of_mem_upTo {α : Type} {limit : Int} {items : List α} {item : α}
    (h : item ∈ upTo limit items) : item ∈ items := by
  cases limit with
  | ofNat count => exact List.mem_of_mem_take h
  | negSucc count => exact List.mem_of_mem_take h

theorem previewLines_eq_mapM (issues : List Issue) :
    previewLines issues = issues.mapM previewLine := by
  induction issues with
  | nil => rfl
  | cons issue issues ih => rw [previewLines, ih, List.mapM_cons]

theorem isOk_groupLines (limit : Int) (source : String) (issues : List Issue) :
    (groupLines limit source issues).isOk = true ↔ ∀ issue ∈ upTo limit issues, issue.Known := by
  have hpreview (issue : Issue) : (previewLine issue).isOk = true ↔ issue.Known := by
    rw [previewLine, ← issue.isOk_severity?]
    cases issue.severity? <;> rfl
  have hlines : (groupLines limit source issues).isOk = (previewLines (upTo limit issues)).isOk :=
    isOk_bind_ok (previewLines (upTo limit issues)) _
  rw [hlines, previewLines_eq_mapM, isOk_mapM, List.all_eq_true]
  exact forall₂_congr fun issue _ => hpreview issue

theorem isOk_allGroupLines (limit : Int) (groups : List (String × List Issue)) :
    (allGroupLines limit groups).isOk = true ↔
      ∀ group ∈ groups, ∀ issue ∈ upTo limit group.2, issue.Known := by
  induction groups with
  | nil => simp [allGroupLines]
  | cons group groups ih =>
      rw [List.forall_mem_cons, ← isOk_groupLines limit group.1, ← ih, ← Bool.and_eq_true]
      exact Eq.congr_left
        (isOk_bind_bind_ok (groupLines limit group.1 group.2) (allGroupLines limit groups) _)

/-- The report on a pull request can be made if the severities of the issues that it shows are
known. -/
theorem isOk_pullRequest (issues : List Issue) (limit : Int) :
    (pullRequest issues limit).isOk = true ↔
      ∀ issue, Shown limit issues issue → issue.Known := by
  have hgroups : (pullRequest issues limit).isOk = (allGroupLines limit (grouped issues)).isOk :=
    isOk_bind_ok (allGroupLines limit (grouped issues)) _
  rw [hgroups, isOk_allGroupLines]
  simp only [grouped, List.forall_mem_map]
  constructor
  · intro h issue hshown
    have hissue : issue ∈ issues := List.mem_of_mem_filter (mem_of_mem_upTo hshown)
    have hsource : issue.source ∈ sources issues :=
      List.mem_eraseDups.2 (List.mem_map.2 ⟨issue, hissue, rfl⟩)
    exact h issue.source hsource issue hshown
  · intro h source _ issue hissue
    have hsource : issue.source = source := by
      simpa using (List.mem_filter.1 (mem_of_mem_upTo hissue)).2
    subst hsource
    exact h issue hissue

end Report

/-! ### Scans -/

namespace RuleSet

variable {set : RuleSet}

/-- The severities of all rules are known. -/
def Known (set : RuleSet) : Prop :=
  ∀ c ∈ set.rules, ∃ severity, Severity.ofName? c.rule.severity = some severity

/-- The severities in a rule set that can be made are known. -/
theorem known_of_ofRules {rules : List Rule} {names : String → Option Nat}
    (h : ofRules rules names = .ok set) : set.Known := by
  have hfits : Fits names rules := (isOk_ofRules rules).1 (by rw [h]; rfl)
  intro c hc
  have hrule : c.rule ∈ rules := by
    rw [← (madeOf_of_ofRules h).rules_eq]
    exact List.mem_map.2 ⟨c, hc, rfl⟩
  exact Severity.exists_ofName?_iff.2 (hfits.sound c.rule hrule).severity_mem

theorem known_of_select {catalogue : List Rule} {selection : Selection}
    {names : String → Option Nat} (h : select catalogue selection names = .ok set) :
    set.Known := by
  unfold select at h
  split at h
  · exact known_of_ofRules h
  · cases h

theorem exists_issueAt_of_mem_scanLines {rules : List CompiledRule} {source : String} {first : Nat}
    {lines : List (List Char)} {issue : Issue} (h : issue ∈ scanLines rules source first lines) :
    ∃ c ∈ rules, ∃ number span, issue = issueAt source number c.rule span := by
  induction lines generalizing first with
  | nil => cases h
  | cons line lines ih =>
      rcases List.mem_append.1 h with h | h
      · obtain ⟨c, hc, h⟩ := List.mem_flatMap.1 h
        obtain ⟨span, -, rfl⟩ := List.mem_map.1 h
        exact ⟨c, hc, first, span, rfl⟩
      · exact ih h

/-- An issue of a scan is one of its text, and of some rule. -/
theorem exists_issueAt_of_mem_scan {source text : String} {language : Option String}
    {issue : Issue} (h : issue ∈ set.scan source text language) :
    ∃ c ∈ set.rules, ∃ number span, issue = issueAt source number c.rule span := by
  unfold RuleSet.scan scanWith at h
  split at h
  · cases h
  · obtain ⟨c, hc, number, span, rfl⟩ := exists_issueAt_of_mem_scanLines h
    exact ⟨c, List.mem_of_mem_filter hc, number, span, rfl⟩

/-- The severities in a scan are known if those of the rules are. -/
theorem Known.scan (h : set.Known) {source text : String} {language : Option String} :
    ∀ issue ∈ set.scan source text language, issue.Known := by
  intro issue hissue
  obtain ⟨c, hc, number, span, rfl⟩ := exists_issueAt_of_mem_scan hissue
  exact (Issue.known_iff _).2 (h c hc)

theorem Known.scans (h : set.Known) (units : List SourceUnit) :
    ∀ issue ∈ units.flatMap (fun unit => set.scan unit.source unit.text), issue.Known := by
  intro issue hissue
  obtain ⟨unit, -, hissue⟩ := List.mem_flatMap.1 hissue
  exact h.scan issue hissue

end RuleSet

end LineLint
