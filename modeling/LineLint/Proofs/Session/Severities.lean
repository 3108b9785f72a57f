/-
**Severities stay known in a session, and a single unknown one is never got rid of.**

A session takes in issues from four sides.  Those of scans have the severities of rules, which are
known in every rule set that can be made, and those of a saved report are refused unless they are
known; so only issues that are added by hand can bring in another severity.  As long as none does,
every question about the findings has an answer.  Once one is there it stays, because a session only
appends; and the first one of them is what every later refusal names.

Main definitions:

* `LineLint.Issue.FirstUnknown` — the first issue whose severity is not known;
* `LineLint.Session.Step.AddsKnown` — a step that adds no issue of unknown severity by hand;
* `LineLint.Session.Answers`, `LineLint.Session.Refuses` — **what a session answers** while all
  severities are known, and once one is not.

Main results:

* `LineLint.Session.known_run` — any steps keep the severities known;
* `LineLint.Session.answers_of_known`, `LineLint.Session.refuses_of_firstUnknown` — what follows for
  one state;
* `LineLint.Session.run_answers_or_refuses` — **what follows for all states of a session**.
-/

import LineLint.Proofs.Session.AppendOnly

set_option relaxedAutoImplicit false
set_option autoImplicit false

namespace LineLint

/-! ### The first unknown severity -/

/-- The first of some issues whose severity is not known. -/
def Issue.FirstUnknown (bad : Issue) (issues : List Issue) : Prop :=
  ∃ before after, issues = before ++ bad :: after ∧ (∀ issue ∈ before, issue.Known) ∧ ¬bad.Known

namespace Issue

variable {bad : Issue} {issues : List Issue}

theorem exists_firstUnknown (h : ∃ issue ∈ issues, ¬issue.Known) :
    ∃ bad : Issue, bad.FirstUnknown issues := by
  obtain ⟨bad, hfirst⟩ : ∃ bad, issues.find? (fun issue => !decide issue.Known) = some bad := by
    rw [← Option.isSome_iff_exists, List.find?_isSome]
    simpa using h
  obtain ⟨hbad, before, after, hsplit, hbefore⟩ := List.find?_eq_some_iff_append.1 hfirst
  exact ⟨bad, before, after, hsplit, by simpa using hbefore, by simpa using hbad⟩

/-- What comes behind does not change which issue is the first. -/
theorem FirstUnknown.append (h : bad.FirstUnknown issues) (more : List Issue) :
    bad.FirstUnknown (issues ++ more) := by
  obtain ⟨before, after, rfl, hbefore, hbad⟩ := h
  exact ⟨before, after ++ more, by simp, hbefore, hbad⟩

/-- Counting stops at the first severity that is not known. -/
theorem FirstUnknown.severities (h : bad.FirstUnknown issues) :
    Findings.severities issues = .error ⟨bad.severity⟩ := by
  obtain ⟨before, after, rfl, hbefore, hbad⟩ := h
  induction before with
  | nil =>
      rw [List.nil_append, Findings.severities, Issue.severity?, ofName?_of_not_known hbad]
      rfl
  | cons issue before ih =>
      obtain ⟨hissue, hbefore⟩ := List.forall_mem_cons.1 hbefore
      obtain ⟨severity, hseverity⟩ := isOk_eq_true_iff.1 (issue.isOk_severity?.2 hissue)
      rw [List.cons_append, Findings.severities, hseverity, ih hbefore]
      rfl

theorem FirstUnknown.read_write (h : bad.FirstUnknown issues) :
    Payload.read (Payload.write issues) = .error (.unknownSeverity bad.severity) := by
  obtain ⟨before, after, rfl, hbefore, hbad⟩ := h
  rw [Payload.read_write_unlimited, Payload.issues_map_value_of_first hbefore hbad]

end Issue

namespace Session

/-! ### One state -/

/-- All questions about the findings of a session have answers. -/
structure Answers (session : Session) : Prop where
  /-- The counts of the severities are right, and add up to the number of issues. -/
  summary : ∃ summary, (session.step .summary).1 = .ok (.summary summary) ∧
    (∀ severity, summary.count severity =
      session.findings.issues.countP fun issue => issue.severity == severity.name) ∧
    summary.errors + summary.warnings + summary.infos = summary.total ∧
    summary.total = session.findings.issues.length
  /-- The exit code is one if some issue is an error, else zero. -/
  exit : (session.step .exit).1 =
    .ok (.exit (decide (∃ issue ∈ session.findings.issues, issue.severity = "error"))
      (if ∃ issue ∈ session.findings.issues, issue.severity = "error" then 1 else 0))
  render : ∃ report, (session.step .render).1 = .ok (.text report)
  renderPullRequest : ∃ report, (session.step .renderPullRequest).1 = .ok (.text report)
  reload : (session.step .reload).1 = .ok (.truth true)

/-- The questions that look at every severity are refused, all for the severity `name`; the others
have answers. -/
structure Refuses (session : Session) (name : String) : Prop where
  summary : (session.step .summary).1 = .error (.severity ⟨name⟩)
  exit : (session.step .exit).1 = .error (.severity ⟨name⟩)
  render : (session.step .render).1 = .error (.severity ⟨name⟩)
  reload : (session.step .reload).1 =
    .error (.payload (.unknownSeverity name) (Payload.write session.findings.issues))
  issues : (session.step .issues).1 = .ok (.issues session.findings.issues)
  fixable : (session.step .fixable).1 =
    .ok (.number (session.findings.issues.countP fun issue => issue.fixable))
  serialize : (session.step .serialize).1 = .ok (.text (Payload.text session.findings.issues))

variable {session : Session}

/-- While all severities are known, all questions have answers. -/
theorem answers_of_known (h : ∀ issue ∈ session.findings.issues, issue.Known) :
    session.Answers where
  summary := by
    obtain ⟨summary, hsummary, hcounts⟩ := Findings.exists_summary h
    exact ⟨summary, by rw [step, hsummary]; rfl, hcounts⟩
  exit := by
    rw [step, ending, Findings.hasErrors_of_known h, Findings.exitCode_of_known h]
    rfl
  render := by
    obtain ⟨report, hreport⟩ := isOk_eq_true_iff.1 ((Report.isOk_human session.findings).2 h)
    exact ⟨report, by rw [step, hreport]; rfl⟩
  renderPullRequest := by
    have hshown : ∀ issue, Report.Shown Report.previewLimit session.findings.issues issue →
        issue.Known := fun issue hshown =>
      h issue (List.mem_of_mem_filter (Report.mem_of_mem_upTo hshown))
    obtain ⟨report, hreport⟩ := isOk_eq_true_iff.1 ((Report.isOk_pullRequest _ _).2 hshown)
    exact ⟨report, by rw [step, hreport]; rfl⟩
  reload := by
    simp [step, reloads, Payload.read_write_unlimited, Payload.issues_map_value_of_known h]

/-- Once a severity is not known, the first such one is what the refusals name. -/
theorem refuses_of_firstUnknown {bad : Issue} (h : bad.FirstUnknown session.findings.issues) :
    session.Refuses bad.severity := by
  have hsummary : session.findings.summary = .error ⟨bad.severity⟩ := by
    rw [Findings.summary, h.severities]
    rfl
  exact
    { summary := by rw [step, hsummary]; rfl
      exit := by rw [step, ending, Findings.hasErrors, hsummary]; rfl
      render := by rw [step, Report.human, hsummary]; rfl
      reload := by simp only [step, reloads, h.read_write]
      issues := rfl
      fixable := by rw [step, Findings.fixableCount, List.countP_eq_length_filter]
      serialize := rfl }

/-! ### All states -/

/-- The step adds no issue of unknown severity by hand. -/
def Step.AddsKnown : Step → Prop
  | .add found _ => ∀ issue ∈ found, issue.Known
  | _ => True

variable {set : RuleSet}

theorem Step.known_batch (hset : set.Known) {step : Step} (h : step.AddsKnown) :
    ∀ issue ∈ step.batch set, issue.Known := by
  cases step with
  | add found source => exact h
  | lint units jobs schedule => exact hset.scans units
  | patches files => exact hset.scans (files.filterMap ChangedFile.patched?)
  | load bytes limits =>
      cases hread : Payload.read bytes limits with
      | error error => simp [Step.batch, hread, Except.toOption]
      | ok found => simpa [Step.batch, hread, Except.toOption] using Payload.known_of_read hread
  | _ => simp [Step.batch]

/-- One step keeps the severities known. -/
theorem known_step (hset : set.Known) (hfaithful : session.matcher.Faithful set) {step : Step}
    (hadds : step.AddsKnown) (h : ∀ issue ∈ session.findings.issues, issue.Known) :
    ∀ issue ∈ (session.step step).2.findings.issues, issue.Known := by
  have happends := Appends.step hfaithful step
  cases hanswer : (session.step step).1.isOk with
  | true =>
      rw [happends.issues_of_ok hanswer, List.forall_mem_append]
      exact ⟨h, Step.known_batch hset hadds⟩
  | false =>
      rw [happends.findings_of_error hanswer]
      exact h

/-- Any steps keep the severities known. -/
theorem known_run (hset : set.Known) {steps : List Step} (hadds : ∀ step ∈ steps, step.AddsKnown)
    (hfaithful : session.matcher.Faithful set)
    (h : ∀ issue ∈ session.findings.issues, issue.Known) :
    ∀ issue ∈ (session.run steps).2.findings.issues, issue.Known := by
  induction steps generalizing session with
  | nil => exact h
  | cons step steps ih =>
      obtain ⟨hstep, hsteps⟩ := List.forall_mem_cons.1 hadds
      exact ih hsteps (Appends.step hfaithful step).faithful (known_step hset hfaithful hstep h)

/-- **A session answers all questions as long as only known severities are added by hand, and once
there is another one it refuses those that look at every severity, for ever.**  The rules may be any
that make a rule set; what is linted and what is loaded may be anything. -/
theorem run_answers_or_refuses {rules : List Rule} {names : String → Option Nat}
    (hset : RuleSet.ofRules rules names = .ok set) (tree : Tree) (directory : Location)
    (steps : List Step) :
    let start : Session := { matcher := { rules := set }, tree := tree, directory := directory }
    let session := (start.run steps).2
    ((∀ step ∈ steps, step.AddsKnown) → session.Answers) ∧
      ((∃ issue ∈ session.findings.issues, ¬issue.Known) →
        ∃ bad ∈ session.findings.issues, ¬bad.Known ∧
          ∀ later : List Step, (session.run later).2.Refuses bad.severity) := by
  intro start session
  have hstart : start.matcher.Faithful set := Matcher.Used.fresh.faithful
  constructor
  · intro hadds
    exact answers_of_known
      (known_run (RuleSet.known_of_ofRules hset) hadds hstart (by simp [start]))
  · intro hunknown
    obtain ⟨bad, hfirst⟩ := Issue.exists_firstUnknown hunknown
    have hfaithful : session.matcher.Faithful set := (run_findings hstart steps).1
    refine ⟨bad, ?_, ?_, fun later => refuses_of_firstUnknown ?_⟩
    · obtain ⟨before, after, hsplit, -⟩ := hfirst
      rw [hsplit]
      simp
    · obtain ⟨before, after, -, -, hbad⟩ := hfirst
      exact hbad
    · -- later steps only append, so the first unknown severity stays the first
      rw [(run_findings hfaithful later).2.1]
      exact hfirst.append _

/-- An issue by hand, a scan by two workers and a saved report; and another session, in which the
second issue has an unknown severity. -/
theorem run_answers_or_refuses_fatal :
    let rule : Rule := { id := "x", pattern := "x", message := "m", severity := "error" }
    let set : RuleSet := ⟨[⟨rule, .chars (Pattern.CharClass.literal {} 120)⟩]⟩
    let hint : Issue := ⟨"b", .truth true, .number (-1), "n", "info", "r", true⟩
    let fatal : Issue := { hint with severity := "fatal" }
    let start : Session := { matcher := { rules := set }, directory := ["r"] }
    let steps : List Step :=
      [.add [hint] none, .lint [⟨"a.py", "x"⟩, ⟨"", ""⟩] 2 [1, 0], .load (Payload.write [hint])]
    RuleSet.ofRules [rule] = .ok set ∧ (start.run steps).2.Answers ∧
      ∀ later : List Step,
        ((start.run [.add [hint, fatal] none]).2.run later).2.Refuses "fatal" := by
  intro rule set hint fatal start steps
  have hset : RuleSet.ofRules [rule] = .ok set := by decide +kernel
  have hadds : ∀ step ∈ steps, step.AddsKnown := by
    simp only [steps, List.forall_mem_cons, Step.AddsKnown]
    exact ⟨⟨by decide, by simp⟩, trivial, trivial, by simp⟩
  have hanswers := (run_answers_or_refuses hset (.directory []) ["r"] steps).1 hadds
  obtain ⟨bad, hmem, hbad, hrefuses⟩ :=
    (run_answers_or_refuses hset (.directory []) ["r"] [.add [hint, fatal] none]).2
      ⟨fatal, List.mem_cons_of_mem _ List.mem_cons_self, by decide⟩
  have hfatal : bad = fatal := by
    rcases List.mem_cons.1 hmem with rfl | hmem
    · exact absurd hbad (by decide)
    · exact List.mem_singleton.1 hmem
  rw [hfatal] at hrefuses
  exact ⟨hset, hanswers, hrefuses⟩

end Session

end LineLint
