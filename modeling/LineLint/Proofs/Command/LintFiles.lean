/-
**What a run over files does, from its arguments to its exit code.**

The texts are those that the traversal finds, and what counts of a run is the scans of these texts,
one after the other.  They are reported, they are saved, and they decide the exit code.  All texts
are read before anything is saved, so the issues may be saved to a file that is linted itself.

Main definitions:

* `LineLint.Command.LintArguments.units` — the texts that a run over files lints;
* `LineLint.Command.Reports` — a report for people and what is in it.

Main results:

* `LineLint.Command.exists_lintFiles` — a run over files scans its texts, and then ends;
* `LineLint.Command.exists_reports` — what its report consists of;
* `LineLint.Command.lint_concludes_scans` — **a run over files reports and saves the scans of its
  texts, whatever the number of jobs**.
-/

import LineLint.Proofs.Command.Outcome
import LineLint.Proofs.Lint.Schedules
import LineLint.Proofs.Report.Plain

set_option relaxedAutoImplicit false
set_option autoImplicit false

namespace LineLint.Command

variable {world : World} {arguments : List String} {settings : Settings} {set : RuleSet}

/-- The texts that a run over files lints, in the order in which the traversal finds them. -/
def LintArguments.units (given : LintArguments) (world : World) : List SourceUnit :=
  let traversal : Traversal := ⟨world.tree, world.directory, given.exclude, world.faults⟩
  Event.units (traversal.fromPaths given.recursive given.paths)

open Report (Piece humanLines page) in
/-- A report for people and what is in it: the counts of the severities, and an entry for each
issue.  What is printed are the lines of these, without the styles. -/
structure Reports (findings : Findings) (report : String) (summary : Summary)
    (entries : List Report.Preview) : Prop where
  human_eq : Report.human findings = .ok report
  unitsScanned_eq : summary.unitsScanned = findings.scanned.length
  total_eq : summary.total = findings.issues.length
  count_eq : ∀ severity, summary.count severity =
    findings.issues.countP fun issue => issue.severity == severity.name
  entries_eq : entries.map Report.Preview.issue = findings.issues
  shown_eq : shown report = page Piece.bare (humanLines summary entries) ++ "\n"

/-- The report can be made if all severities are known. -/
theorem exists_reports {findings : Findings} (h : ∀ issue ∈ findings.issues, issue.Known) :
    ∃ report summary entries, Reports findings report summary entries := by
  obtain ⟨summary, hsummary, hcounts, -, htotal⟩ := Findings.exists_summary h
  obtain ⟨summary', entries, hsummary', hentries, hhuman, hleft⟩ := Report.exists_human_page h
  obtain rfl : summary = summary' := Except.ok.inj (hsummary.symm.trans hsummary')
  have hscanned : summary.unitsScanned = findings.scanned.length := by
    obtain ⟨found, -, hfound⟩ := exists_of_bind_eq_ok hsummary
    cases hfound
    rfl
  exact ⟨_, summary, entries, hhuman, hscanned, htotal, hcounts, hentries, by rw [shown, hleft]⟩

/-- A run over files with at least one job scans its texts, can report what it has found because all
severities are known, and ends with that. -/
theorem exists_lintFiles {given : LintArguments} (hjobs : 1 ≤ given.jobs)
    (hselect : selectRules world settings given.disable = .ok set) :
    ∃ finished report summary entries,
      finished.findings =
        ⟨(given.units world).flatMap (fun unit => set.scan unit.source unit.text),
          (given.units world).map SourceUnit.source⟩ ∧
      (∀ issue ∈ finished.findings.issues, issue.Known) ∧
      Reports finished.findings report summary entries ∧
      lintFiles world settings given =
        conclude world finished
          (report :: if given.fix then [fixLine finished.findings] else []) given.output := by
  obtain ⟨finished, hrun, hfindings⟩ :=
    Lint.exists_run_fresh set [builtNote set, lintingNote given set] hjobs
      (Traversal.fromPaths ⟨world.tree, world.directory, given.exclude, world.faults⟩
        given.recursive given.paths)
      world.schedule
  have hknown : ∀ issue ∈ finished.findings.issues, issue.Known := by
    rw [hfindings]
    exact (known_of_selectRules hselect).scans (given.units world)
  obtain ⟨report, summary, entries, hreports⟩ := exists_reports hknown
  refine ⟨finished, report, summary, entries, hfindings, hknown, hreports, ?_⟩
  simp only [lintFiles, hselect, hrun, hreports.human_eq]
  cases given.fix <;> rfl

/-- **A run over files reports and saves the scans of its texts**, one after the other.  The report
comes first, and has a line for each issue; an error among the issues or a failure to save them
gives exit code one, and nothing else does; no other file changes than the one that the issues are
saved to.  The number of jobs and the order in which the workers move change nothing of this. -/
theorem lint_concludes_scans {given : LintArguments} (hworld : world.WellFormed)
    (hasks : Asks arguments (.lint given))
    (hload : Settings.load world.environment = .ok settings)
    (hselect : selectRules world settings given.disable = .ok set) :
    let units := given.units world
    let issues := units.flatMap (fun unit => set.scan unit.source unit.text)
    let outcome := run world arguments
    (∃ report summary entries,
      Reports ⟨issues, units.map SourceUnit.source⟩ report summary entries ∧
      Concludes world report issues given.output outcome) ∧
    ∀ (arguments' : List String) (jobs : Int) (schedule : List Nat),
      Asks arguments' (.lint { given with jobs := jobs }) →
      let outcome' := run { world with schedule := schedule } arguments'
      outcome'.stdout = outcome.stdout ∧ outcome'.exitCode = outcome.exitCode ∧
        outcome'.tree = outcome.tree ∧
        outcome'.written world.tree = outcome.written world.tree := by
  intro units issues outcome
  obtain ⟨hjobs, hparts⟩ := hasks.lint
  obtain ⟨finished, report, summary, entries, hfindings, hknown, hreports, hlint⟩ :=
    exists_lintFiles hjobs hselect
  have hagrees : outcome.Agrees (lintFiles world settings given) := (run_of_load_ok hasks hload).1
  rw [hlint] at hagrees
  constructor
  · have hconcludes := (concludes_conclude hworld hknown report _ hparts).congr hagrees
    rw [hfindings] at hconcludes hreports
    exact ⟨report, summary, entries, hreports, hconcludes⟩
  · intro arguments' jobs schedule hasks' outcome'
    -- the same findings, hence the same report and the same end
    let world' : World := { world with schedule := schedule }
    let given' : LintArguments := { given with jobs := jobs }
    obtain ⟨finished', report', _, _, hfindings', -, hreports', hlint'⟩ :=
      @exists_lintFiles world' settings set given' hasks'.lint.1 hselect
    have hagrees' : outcome'.Agrees (lintFiles world' settings given') :=
      (@run_of_load_ok world' arguments' (.lint given') settings hasks' hload).1
    have hsame : finished'.findings = finished.findings := hfindings'.trans hfindings.symm
    have hreport : report' = report := by
      refine Except.ok.inj (hreports'.human_eq.symm.trans ?_)
      rw [hsame, hreports.human_eq]
    rw [hlint', hsame, hreport] at hagrees'
    have hboth : outcome'.Agrees outcome :=
      hagrees'.trans ((conclude_agrees rfl rfl hsame).trans hagrees.symm)
    exact ⟨hboth.stdout_eq, hboth.exitCode_eq, hboth.tree_eq, hboth.written_eq world.tree⟩

/-- Two jobs, and the issues are saved to the file that they are found in; both paths are absolute,
and one leads through an absolute link. -/
theorem lint_concludes_scans_onto_source :
    let rule : Rule := { id := "x", pattern := "x", message := "m", severity := "error" }
    let set : RuleSet := ⟨[⟨rule, .chars (Pattern.CharClass.literal {} 120)⟩]⟩
    let settings : Settings := ⟨none, defaultApiUrl, [], .warning⟩
    let path : Path := ⟨"/", ["l", "a.py"]⟩
    let given : LintArguments := ⟨[⟨"/", ["w", "a.py"]⟩], false, some path, false, [], [], 2⟩
    let arguments := ["lint", "/w/a.py", "--jobs", "2", "-o/l/a.py"]
    let world : World :=
      { tree := .directory [("w", .directory [("a.py", .file [120])]), ("l", .link "/w")]
        directory := ["w"]
        environment := []
        response := .failed ""
        catalogue := [rule] }
    let issue : Issue := ⟨"/w/a.py", .number 1, .number 1, "m", "error", "x", false⟩
    world.WellFormed ∧ Asks arguments (.lint given) ∧
      Settings.load world.environment = .ok settings ∧
      selectRules world settings given.disable = .ok set ∧
      (run world arguments).exitCode = 1 ∧
      (run world arguments).tree.at? ["w", "a.py"] = some (.file (Payload.write [issue])) := by
  intro rule set settings path given arguments world issue
  have hworld : world.WellFormed := ⟨by decide, [("a.py", .file [120])], rfl⟩
  have hasks : Asks arguments (.lint given) :=
    ⟨⟨false, false, false, arguments⟩, "lint", arguments.tail, .lint, by decide +kernel⟩
  have hload : Settings.load world.environment = .ok settings := by decide +kernel
  have hselect : selectRules world settings given.disable = .ok set := by decide +kernel
  have hunits : given.units world = [⟨"/w/a.py", "x"⟩] := by decide +kernel
  have hissues : set.scan "/w/a.py" "x" = [issue] := by decide +kernel
  obtain ⟨⟨report, summary, entries, -, hconcludes⟩, -⟩ :=
    lint_concludes_scans hworld hasks hload hselect
  simp only [hunits, List.flatMap_cons, List.flatMap_nil, hissues, List.append_nil] at hconcludes
  have hwrite : (world.tree.write world.directory path (Payload.write [issue])).isOk = true := by
    decide +kernel
  have hsaves : ¬SaveFails world [issue] given.output := by
    rintro ⟨path', failure, houtput, hfailure⟩
    cases houtput
    rw [hfailure] at hwrite
    cases hwrite
  have hreached : world.tree.resolve world.directory path = .reached ⟨["w", "a.py"], true⟩ := by
    decide +kernel
  obtain ⟨location, hstands, hsaved, -⟩ := hconcludes.saved path rfl hsaves
  obtain rfl : location = ["w", "a.py"] := hstands.unique (Tree.standsFor_of_reached hreached)
  exact ⟨hworld, hasks, hload, hselect,
    hconcludes.exitCode_eq_one.2 (Or.inl ⟨issue, List.mem_singleton_self issue, rfl⟩),
    hsaved.at_location⟩

end LineLint.Command
