/-
**A session only ever appends.**

A step of a session adds its whole batch of issues behind those that are there, or it fails and adds
nothing.  So after any steps the findings are the batches of the steps that succeeded, one behind
the other, and no issue is ever removed, changed or moved.

Main definitions:

* `LineLint.Payload.Valid` — bytes that are a saved report, valid in every entry;
* `LineLint.Session.Step.batch`, `LineLint.Session.Step.scanned` — what a step adds if it succeeds;
* `LineLint.Session.Step.Fails` — **when a step fails**;
* `LineLint.Session.succeeded` — the steps of a run that succeeded.

Main results:

* `LineLint.Session.isOk_step` — a step succeeds unless it fails for one of those reasons;
* `LineLint.Session.Appends.step` — one step appends its batch or nothing;
* `LineLint.Session.run_findings` — what any steps leave;
* `LineLint.Session.run_appends_batches` — **after any steps the findings are the batches of those
  that succeeded**.
-/

import LineLint.Proofs.Lint.Schedules
import LineLint.Proofs.Payload.Acceptance
import LineLint.Proofs.Remote.Listing
import LineLint.Proofs.Report.Severities
import LineLint.Session

set_option relaxedAutoImplicit false
set_option autoImplicit false

namespace LineLint

/-! ### Saved reports -/

/-- Bytes that are a saved report within limits: an array, and valid in every entry. -/
def Payload.Valid (bytes : List UInt8) (limits : Json.Limits) : Prop :=
  ∃ cs entries, Text.Utf8.decode bytes = .ok cs ∧ Json.parse cs limits = .ok (.array entries) ∧
    ∀ entry ∈ entries, ∃ found, issue entry = .ok found

/-- A saved report is read if it is valid in every entry, and else not at all. -/
theorem Payload.isOk_read (bytes : List UInt8) (limits : Json.Limits) :
    (read bytes limits).isOk = true ↔ Valid bytes limits := by
  unfold read
  constructor
  · intro h
    split at h
    · cases h
    · next cs hdecode =>
        split at h
        · cases h
        · next entries hparse =>
            rw [issues_eq_mapM, isOk_mapM, List.all_eq_true] at h
            exact ⟨cs, entries, hdecode, hparse, fun entry hentry =>
              isOk_eq_true_iff.1 (h entry hentry)⟩
        · cases h
  · rintro ⟨cs, entries, hdecode, hparse, hentries⟩
    simp only [hdecode, hparse, issues_eq_mapM, isOk_mapM, List.all_eq_true]
    exact fun entry hentry => isOk_eq_true_iff.2 (hentries entry hentry)

namespace Session

/-! ### What a step adds, and when it fails -/

/-- The issues that a step adds if it succeeds. -/
def Step.batch (set : RuleSet) : Step → List Issue
  | .add found _ => found
  | .lint units _ _ => units.flatMap (fun unit => set.scan unit.source unit.text)
  | .patches files =>
    (files.filterMap ChangedFile.patched?).flatMap (fun unit => set.scan unit.source unit.text)
  | .load bytes limits => (Payload.read bytes limits).toOption.getD []
  | _ => []

/-- The names of the texts that a step counts if it succeeds. -/
def Step.scanned : Step → List String
  | .add _ source => source.toList
  | .lint units _ _ => units.map SourceUnit.source
  | .patches files => (files.filterMap ChangedFile.patched?).map SourceUnit.source
  | _ => []

/-- When a step of a session fails. -/
def Step.Fails (session : Session) : Step → Prop
  | .lint _ jobs _ => jobs < 1
  | .load bytes limits => ¬Payload.Valid bytes limits
  | .reload | .summary | .exit | .render => ∃ issue ∈ session.findings.issues, ¬issue.Known
  | .renderPullRequest =>
    ∃ issue, Report.Shown Report.previewLimit session.findings.issues issue ∧ ¬issue.Known
  | .write path => ∃ failure,
    session.tree.write session.directory path (Payload.write session.findings.issues) =
      .error failure
  | .add _ _ | .patches _ | .scan _ _ _ | .issues | .fixable | .serialize => False

theorem isOk_known {α : Type} (result : Except UnknownSeverity α) (answer : α → Answer) :
    (known result answer).isOk = result.isOk := by
  cases result <;> rfl

theorem isOk_ending (session : Session) :
    session.ending.isOk = session.findings.hasErrors.isOk := by
  unfold ending Findings.exitCode
  cases session.findings.hasErrors <;> rfl

theorem isOk_lintEvents (session : Session) (jobs : Int) (events : List Event)
    (schedule : List Nat) :
    (session.lintEvents jobs events schedule).1.isOk = false ↔ jobs < 1 := by
  unfold lintEvents Lint.run
  by_cases hjobs : jobs < 1
  · simp [hjobs]
  · by_cases hone : jobs = 1 <;> simp [hjobs, hone]

theorem isOk_reloads (session : Session) :
    session.reloads.isOk = true ↔ ∀ issue ∈ session.findings.issues, issue.Known := by
  have hread : session.reloads.isOk =
      (Payload.read (Payload.write session.findings.issues)).isOk := by
    simp only [reloads]
    cases Payload.read (Payload.write session.findings.issues) <;> rfl
  have hissue (i : Issue) : (Payload.issue (Payload.value i)).isOk = true ↔ i.Known := by
    by_cases hknown : i.Known
    · simp [Payload.issue_value_of_known hknown, hknown]
    · simp [Payload.issue_value_of_not_known hknown, hknown]
  rw [hread, Payload.read_write_unlimited, Payload.issues_eq_mapM, isOk_mapM, List.all_map,
    List.all_eq_true]
  exact forall₂_congr fun i _ => hissue i

/-- **When a step fails.** -/
theorem isOk_step (session : Session) (step : Step) :
    (session.step step).1.isOk = false ↔ step.Fails session := by
  have hsome {α : Type} {result : Except UnknownSeverity α} {p : Issue → Prop}
      (h : result.isOk = true ↔ ∀ issue, p issue → issue.Known) :
      result.isOk = false ↔ ∃ issue, p issue ∧ ¬issue.Known := by
    rw [← Bool.not_eq_true, h]
    simp
  cases step with
  | add issues source => simp [Session.step, Step.Fails]
  | lint units jobs schedule => exact isOk_lintEvents session jobs _ schedule
  | patches files =>
      refine (isOk_lintEvents session 1 (ChangedFile.events files) []).trans ?_
      simp [Step.Fails]
  | load bytes limits =>
      have hread : (session.step (.load bytes limits)).1.isOk =
          (Payload.read bytes limits).isOk := by
        simp only [Session.step]
        cases Payload.read bytes limits <;> rfl
      rw [hread, ← Bool.not_eq_true, Payload.isOk_read]
      rfl
  | scan source text language => simp [Session.step, Step.Fails]
  | reload =>
      rw [← Bool.not_eq_true]
      exact (not_congr session.isOk_reloads).trans (by simp [Step.Fails])
  | summary =>
      refine Iff.trans ?_ (hsome session.findings.isOk_summary)
      rw [Session.step, isOk_known]
  | issues => simp [Session.step, Step.Fails]
  | exit =>
      refine Iff.trans ?_ (hsome session.findings.isOk_summary)
      rw [Session.step, isOk_known, isOk_ending, Findings.isOk_hasErrors]
  | fixable => simp [Session.step, Step.Fails]
  | render =>
      refine Iff.trans ?_ (hsome (Report.isOk_human session.findings))
      rw [Session.step, isOk_known]
  | renderPullRequest =>
      refine Iff.trans ?_ (hsome (Report.isOk_pullRequest session.findings.issues _))
      rw [Session.step, isOk_known]
  | serialize => simp [Session.step, Step.Fails]
  | write path =>
      rw [Session.step, save]
      cases hwrite : session.tree.write session.directory path
        (Payload.write session.findings.issues) <;> simp [Step.Fails, hwrite]

/-! ### One step -/

variable {set : RuleSet} {session : Session}

/-- The result of a step that has appended its whole batch, or has failed and appended nothing. -/
structure Appends (set : RuleSet) (session : Session) (step : Step)
    (result : Except Error Answer × Session) : Prop where
  faithful : result.2.matcher.Faithful set
  issues_of_ok : result.1.isOk = true →
    result.2.findings.issues = session.findings.issues ++ step.batch set
  scanned_of_ok : result.1.isOk = true →
    result.2.findings.scanned = session.findings.scanned ++ step.scanned
  findings_of_error : result.1.isOk = false → result.2.findings = session.findings

/-- A step without a batch only has to leave the findings alone. -/
theorem Appends.of_same {step : Step} {answer : Except Error Answer} {after : Session}
    (hbatch : step.batch set = []) (hscanned : step.scanned = [])
    (hfindings : after.findings = session.findings) (hmatcher : after.matcher.Faithful set) :
    Appends set session step (answer, after) where
  faithful := hmatcher
  issues_of_ok _ := by simp [hbatch, hfindings]
  scanned_of_ok _ := by simp [hscanned, hfindings]
  findings_of_error _ := hfindings

/-- Linting appends the scans of the texts, or nothing if there are less than one job. -/
theorem Appends.lintEvents (h : session.matcher.Faithful set) {step : Step} {jobs : Int}
    {events : List Event} {schedule : List Nat}
    (hbatch : step.batch set =
      (Event.units events).flatMap (fun unit => set.scan unit.source unit.text))
    (hscanned : step.scanned = (Event.units events).map SourceUnit.source) :
    Appends set session step (session.lintEvents jobs events schedule) := by
  unfold Session.lintEvents
  by_cases hjobs : 1 ≤ jobs
  · obtain ⟨done, hdone, hfindings, hmatcher⟩ := @Lint.exists_run set
      { matcher := session.matcher, findings := session.findings } h jobs hjobs events schedule
    simp only [hdone]
    exact
      { faithful := hmatcher
        issues_of_ok := fun _ => by rw [hfindings, Findings.issues_addScans, hbatch]
        scanned_of_ok := fun _ => by rw [hfindings, Findings.scanned_addScans, hscanned]
        findings_of_error := fun herror => by cases herror }
  · have hrun : Lint.run { matcher := session.matcher, findings := session.findings } jobs events
        schedule = .error ⟨jobs⟩ := by
      rw [Lint.run, if_pos (by omega)]
    simp only [hrun]
    exact
      { faithful := h
        issues_of_ok := fun hok => by cases hok
        scanned_of_ok := fun hok => by cases hok
        findings_of_error := fun _ => rfl }

/-- **One step appends its whole batch, or nothing.** -/
theorem Appends.step (h : session.matcher.Faithful set) (step : Step) :
    Appends set session step (session.step step) := by
  cases step with
  | add issues source =>
      exact
        { faithful := h
          issues_of_ok := fun _ => Findings.issues_add session.findings issues source
          scanned_of_ok := fun _ => Findings.scanned_add session.findings issues source
          findings_of_error := fun herror => by cases herror }
  | lint units jobs schedule =>
      exact Appends.lintEvents h (by simp [Step.batch]) (by simp [Step.scanned])
  | patches files =>
      rw [Session.step]
      refine Appends.lintEvents h ?_ ?_
      · rw [ChangedFile.units_events, Step.batch]
      · rw [ChangedFile.units_events, Step.scanned]
  | load bytes limits =>
      simp only [Session.step]
      cases hread : Payload.read bytes limits with
      | error error =>
          exact
            { faithful := h
              issues_of_ok := fun hok => by cases hok
              scanned_of_ok := fun hok => by cases hok
              findings_of_error := fun _ => rfl }
      | ok issues =>
          exact
            { faithful := h
              issues_of_ok := fun _ => by simp [Step.batch, hread, Except.toOption]
              scanned_of_ok := fun _ => by simp [Step.scanned]
              findings_of_error := fun herror => by cases herror }
  | scan source text language => exact .of_same rfl rfl rfl (h.scan source text language).2
  | write path =>
      simp only [Session.step, save]
      split
      · exact .of_same rfl rfl rfl h
      · exact .of_same rfl rfl rfl h
  | reload => exact .of_same rfl rfl rfl h
  | summary => exact .of_same rfl rfl rfl h
  | issues => exact .of_same rfl rfl rfl h
  | exit => exact .of_same rfl rfl rfl h
  | fixable => exact .of_same rfl rfl rfl h
  | render => exact .of_same rfl rfl rfl h
  | renderPullRequest => exact .of_same rfl rfl rfl h
  | serialize => exact .of_same rfl rfl rfl h

/-! ### Any steps -/

/-- The steps that succeeded, given the answers to all of them. -/
def succeeded (steps : List Step) (answers : List (Except Error Answer)) : List Step :=
  ((steps.zip answers).filter (fun taken => taken.2.isOk)).map Prod.fst

theorem succeeded_cons (step : Step) (steps : List Step) (answer : Except Error Answer)
    (answers : List (Except Error Answer)) :
    succeeded (step :: steps) (answer :: answers) =
      if answer.isOk then step :: succeeded steps answers else succeeded steps answers := by
  cases hanswer : answer.isOk <;> simp [succeeded, hanswer]

@[simp] theorem length_run (session : Session) (steps : List Step) :
    (session.run steps).1.length = steps.length := by
  induction steps generalizing session with
  | nil => rfl
  | cons step steps ih => simp [run, ih]

theorem run_append (session : Session) (steps : List Step) (step : Step) :
    session.run (steps ++ [step]) =
      ((session.run steps).1 ++ [((session.run steps).2.step step).1],
        ((session.run steps).2.step step).2) := by
  induction steps generalizing session with
  | nil => rfl
  | cons first steps ih => simp [run, ih]

/-- **What any steps leave**: the batches of those that succeeded, behind what was there. -/
theorem run_findings (h : session.matcher.Faithful set) (steps : List Step) :
    (session.run steps).2.matcher.Faithful set ∧
      (session.run steps).2.findings.issues = session.findings.issues ++
        (succeeded steps (session.run steps).1).flatMap (Step.batch set) ∧
      (session.run steps).2.findings.scanned = session.findings.scanned ++
        (succeeded steps (session.run steps).1).flatMap Step.scanned := by
  induction steps generalizing session with
  | nil => exact ⟨h, by simp [run, succeeded], by simp [run, succeeded]⟩
  | cons step steps ih =>
      have hstep := Appends.step h step
      obtain ⟨hfaithful, hissues, hscanned⟩ := ih hstep.faithful
      simp only [run, succeeded_cons]
      cases hanswer : (session.step step).1.isOk with
      | true =>
          refine ⟨hfaithful, ?_, ?_⟩
          · rw [hissues, hstep.issues_of_ok hanswer, if_pos rfl, List.flatMap_cons,
              List.append_assoc]
          · rw [hscanned, hstep.scanned_of_ok hanswer, if_pos rfl, List.flatMap_cons,
              List.append_assoc]
      | false =>
          rw [hstep.findings_of_error hanswer] at hissues hscanned
          exact ⟨hfaithful, hissues, hscanned⟩

/-- **After any steps the findings are the batches of those that succeeded.**  The issues are those
batches, one behind the other, and the texts are those that they count.  Whatever the next step is,
it fails exactly for its reasons; if it fails, it leaves the findings as they were; and in any case
all issues stay, in their places, in front of what it adds. -/
theorem run_appends_batches (set : RuleSet) (tree : Tree) (directory : Location)
    (steps : List Step) (step : Step) :
    let start : Session := { matcher := { rules := set }, tree := tree, directory := directory }
    let answers := (start.run steps).1
    let session := (start.run steps).2
    let answer := (session.step step).1
    let after := (session.step step).2
    answers.length = steps.length ∧
      session.findings.issues = (succeeded steps answers).flatMap (Step.batch set) ∧
      session.findings.scanned = (succeeded steps answers).flatMap Step.scanned ∧
      session.findings.unitsScanned = ((succeeded steps answers).flatMap Step.scanned).length ∧
      start.run (steps ++ [step]) = (answers ++ [answer], after) ∧
      (answer.isOk = false ↔ step.Fails session) ∧
      (answer.isOk = false → after.findings = session.findings) ∧
      session.findings.issues <+: after.findings.issues := by
  intro start answers session answer after
  have hstart : start.matcher.Faithful set := Matcher.Used.fresh.faithful
  obtain ⟨hfaithful, hissues, hscanned⟩ := run_findings hstart steps
  have hstep : Appends set session step (session.step step) := Appends.step hfaithful step
  refine ⟨length_run start steps, hissues, hscanned, congrArg List.length hscanned,
    run_append start steps step, session.isOk_step step, hstep.findings_of_error, ?_⟩
  cases hanswer : answer.isOk with
  | true => exact ⟨step.batch set, (hstep.issues_of_ok hanswer).symm⟩
  | false =>
      have hsame : session.findings = after.findings := (hstep.findings_of_error hanswer).symm
      exact hsame ▸ List.prefix_rfl

end Session

end LineLint
