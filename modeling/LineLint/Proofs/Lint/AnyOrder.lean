/-
**Texts may come in any order.**

No scan of a text depends on the texts before it, not even through what is kept of the rules of
languages.  So a run over the same texts in another order finds the same issues in another order;
every count of them is the same, and so are the issues of one text, unless the order of several
texts of the same name has changed.

Main results:

* `LineLint.RuleSet.source_of_mem_scan`, `LineLint.RuleSet.filter_scans` — the issues of a text
  carry its name, so those of a name are found in the texts of that name;
* `LineLint.Findings.summary_of_perm`, `LineLint.Findings.exitCode_of_perm`,
  `LineLint.Findings.fixableCount_of_perm` — the counts do not depend on the order of the issues;
* `LineLint.Lint.run_of_any_order` — **two runs over the same texts in different orders**.
-/

import LineLint.Proofs.Lint.Schedules
import LineLint.Proofs.Session.Severities

set_option relaxedAutoImplicit false
set_option autoImplicit false

namespace LineLint

/-! ### Names of texts in issues -/

namespace RuleSet

variable {set : RuleSet}

/-- The issues of a text carry its name. -/
theorem source_of_mem_scan {source text : String} {language : Option String} {issue : Issue}
    (h : issue ∈ set.scan source text language) : issue.source = source := by
  obtain ⟨c, -, number, span, rfl⟩ := exists_issueAt_of_mem_scan h
  rfl

/-- The issues of a name are those of the texts of that name. -/
theorem filter_scans (set : RuleSet) (units : List SourceUnit) (source : String) :
    ((units.flatMap fun unit => set.scan unit.source unit.text).filter
      fun issue => issue.source == source) =
        (units.filter fun unit => unit.source == source).flatMap fun unit =>
          set.scan unit.source unit.text := by
  induction units with
  | nil => rfl
  | cons unit units ih =>
      rw [List.flatMap_cons, List.filter_append, ih]
      by_cases hsource : unit.source = source
      · have hall : ((set.scan unit.source unit.text).filter fun issue => issue.source == source) =
            set.scan unit.source unit.text := by
          refine List.filter_eq_self.2 fun issue hissue => ?_
          simpa [source_of_mem_scan hissue] using hsource
        rw [hall, List.filter_cons_of_pos (by simpa using hsource), List.flatMap_cons]
      · have hnone : ((set.scan unit.source unit.text).filter fun issue => issue.source == source) =
            [] := by
          refine List.filter_eq_nil_iff.2 fun issue hissue => ?_
          simpa [source_of_mem_scan hissue] using hsource
        rw [hnone, List.nil_append, List.filter_cons_of_neg (by simpa using hsource)]

end RuleSet

/-! ### Counts -/

namespace Findings

variable {first second : Findings}

/-- A summary does not depend on the order of the issues. -/
theorem summary_of_perm (hperm : first.issues.Perm second.issues)
    (hscanned : first.scanned.Perm second.scanned)
    (hknown : ∀ issue ∈ first.issues, issue.Known) :
    ∃ summary, first.summary = .ok summary ∧ second.summary = .ok summary := by
  have hknown' : ∀ issue ∈ second.issues, issue.Known :=
    fun issue hissue => hknown issue (hperm.mem_iff.2 hissue)
  obtain ⟨summary, hsummary⟩ := isOk_eq_true_iff.1 (first.isOk_summary.2 hknown)
  obtain ⟨summary', hsummary'⟩ := isOk_eq_true_iff.1 (second.isOk_summary.2 hknown')
  obtain ⟨found, hfound, hcounts⟩ := exists_of_bind_eq_ok hsummary
  obtain ⟨found', hfound', hcounts'⟩ := exists_of_bind_eq_ok hsummary'
  have hcount (severity : Severity) : found'.count severity = found.count severity := by
    rw [count_of_severities hfound, count_of_severities hfound', hperm.countP_eq]
  have hsame : summary' = summary := by
    cases hcounts
    cases hcounts'
    simp only [hcount, hperm.length_eq, unitsScanned, hscanned.length_eq]
  exact ⟨summary, hsummary, hsame ▸ hsummary'⟩

/-- The exit code does not depend on the order of the issues. -/
theorem exitCode_of_perm (hperm : first.issues.Perm second.issues)
    (hknown : ∀ issue ∈ first.issues, issue.Known) :
    ∃ code, first.exitCode = .ok code ∧ second.exitCode = .ok code := by
  have hknown' : ∀ issue ∈ second.issues, issue.Known :=
    fun issue hissue => hknown issue (hperm.mem_iff.2 hissue)
  refine ⟨_, exitCode_of_known hknown, ?_⟩
  rw [exitCode_of_known hknown']
  simp only [hperm.mem_iff]

theorem fixableCount_of_perm (hperm : first.issues.Perm second.issues) :
    first.fixableCount = second.fixableCount :=
  (hperm.filter _).length_eq

end Findings

/-! ### Runs -/

namespace Lint

/-- A list with one member at most has no other order. -/
theorem eq_of_perm_of_length_le_one {α : Type} {items items' : List α} (hperm : items.Perm items')
    (hlength : items.length ≤ 1) : items = items' := by
  match items with
  | [] => exact (List.nil_perm.1 hperm).symm
  | [item] => exact (List.perm_singleton.1 hperm.symm).symm
  | _ :: _ :: _ => simp at hlength

/-- **Two runs over the same texts in different orders.**  The runs may have any numbers of jobs,
and matchers that have been used in any way.  Both count the same, and end with the same exit code;
each finds the issues of the other in some order.  The issues of a name are the same in the same
order if the texts of that name are, as they are if there is only one. -/
theorem run_of_any_order {set : RuleSet} (hknown : set.Known) {matcher matcher' : Matcher}
    (hmatcher : matcher.Used set) (hmatcher' : matcher'.Used set) {units units' : List SourceUnit}
    (hperm : units.Perm units') {jobs jobs' : Int} (hjobs : 1 ≤ jobs) (hjobs' : 1 ≤ jobs')
    (schedule schedule' : List Nat) :
    ∃ done done', run { matcher := matcher } jobs (units.map .found) schedule = .ok done ∧
      run { matcher := matcher' } jobs' (units'.map .found) schedule' = .ok done' ∧
      (∃ summary, done.findings.summary = .ok summary ∧ done'.findings.summary = .ok summary) ∧
      (∃ code, done.findings.exitCode = .ok code ∧ done'.findings.exitCode = .ok code) ∧
      done.findings.fixableCount = done'.findings.fixableCount ∧
      done.findings.issues.Perm done'.findings.issues ∧
      ∀ source, ((units.filter fun unit => unit.source == source) =
            units'.filter (fun unit => unit.source == source) ∨
          (units.filter fun unit => unit.source == source).length ≤ 1) →
        (done.findings.issues.filter fun issue => issue.source == source) =
          done'.findings.issues.filter fun issue => issue.source == source := by
  obtain ⟨done, hdone, hfindings, -⟩ :=
    @exists_run set { matcher := matcher } hmatcher.faithful jobs hjobs (units.map .found) schedule
  obtain ⟨done', hdone', hfindings', -⟩ :=
    @exists_run set { matcher := matcher' } hmatcher'.faithful jobs' hjobs' (units'.map .found)
      schedule'
  rw [Findings.addScans_empty, Event.units_map_found] at hfindings hfindings'
  have hissues : done.findings.issues.Perm done'.findings.issues := by
    rw [hfindings, hfindings']
    exact hperm.flatMap_right _
  have hscanned : done.findings.scanned.Perm done'.findings.scanned := by
    rw [hfindings, hfindings']
    exact hperm.map _
  have hseverities : ∀ issue ∈ done.findings.issues, issue.Known := by
    rw [hfindings]
    exact hknown.scans units
  refine ⟨done, done', hdone, hdone', Findings.summary_of_perm hissues hscanned hseverities,
    Findings.exitCode_of_perm hissues hseverities, Findings.fixableCount_of_perm hissues, hissues,
    ?_⟩
  intro source hsource
  have hunits : (units.filter fun unit => unit.source == source) =
      units'.filter fun unit => unit.source == source := by
    rcases hsource with hsame | hone
    · exact hsame
    · exact eq_of_perm_of_length_le_one (hperm.filter _) hone
  rw [hfindings, hfindings', RuleSet.filter_scans, RuleSet.filter_scans, hunits]

/-- Two texts of one name keep their order, and a third one goes to the front; the second run has
several jobs, and a matcher that has seen a text of another language. -/
theorem run_of_any_order_moved :
    let rule : Rule := { id := "x", pattern := "x", message := "m", severity := "error" }
    let set : RuleSet := ⟨[⟨rule, .chars (Pattern.CharClass.literal {} 120)⟩]⟩
    let used : Matcher := (Matcher.scan { rules := set } "c.py" "x").2
    let units : List SourceUnit := [⟨"a.js", "x"⟩, ⟨"a.js", "y\nxx"⟩, ⟨"b.js", "xx"⟩]
    let units' : List SourceUnit := [⟨"b.js", "xx"⟩, ⟨"a.js", "x"⟩, ⟨"a.js", "y\nxx"⟩]
    set.Known ∧ used.Used set ∧ units.Perm units' ∧ ∃ done done',
      run { matcher := { rules := set } } 1 (units.map .found) = .ok done ∧
      run { matcher := used } 2 (units'.map .found) [2, 0, 1, 1] = .ok done' ∧
      done.findings.issues.Perm done'.findings.issues ∧
      (done.findings.issues.filter fun issue => issue.source == "a.js") =
        (done'.findings.issues.filter fun issue => issue.source == "a.js") ∧
      (done.findings.issues.filter fun issue => issue.source == "b.js") =
        done'.findings.issues.filter fun issue => issue.source == "b.js" := by
  intro rule set used units units'
  have hknown : set.Known := by
    intro c hc
    rw [List.mem_singleton.1 hc]
    exact ⟨.error, rfl⟩
  have hused : used.Used set := .scan "c.py" "x" none .fresh
  have hperm : units.Perm units' := by decide
  obtain ⟨done, done', hdone, hdone', -, -, -, hissues, hsources⟩ :=
    run_of_any_order hknown .fresh hused hperm (Int.le_refl 1) (by decide : (1 : Int) ≤ 2) []
      [2, 0, 1, 1]
  refine ⟨hknown, hused, hperm, done, done', hdone, hdone', hissues, ?_, ?_⟩
  · exact hsources "a.js" (Or.inl (by decide))
  · exact hsources "b.js" (Or.inr (by decide))

end Lint

end LineLint
