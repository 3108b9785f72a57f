/-
**How a command that has found its issues ends.**

A command prints its report first and saves the issues last.  Its exit code is one if some issue is
an error or if the issues cannot be saved, and no file changes but the one that they are saved to.

Main definitions:

* `LineLint.Command.World.WellFormed` — a world whose working directory is a directory of a
  well-formed tree;
* `LineLint.Command.Outcome.Agrees` — outcomes that differ in their messages at most;
* `LineLint.Command.Asks` — arguments of the program that ask for a command;
* `LineLint.Command.SaveFails` — the issues cannot be saved;
* `LineLint.Command.Concludes` — **how a command ends that has reported some issues**.

Main results:

* `LineLint.Command.run_of_load_ok`, `LineLint.Command.run_of_load_error` — what the program does
  with arguments that ask for a command;
* `LineLint.Command.concludes_conclude` — the end of a command;
* `LineLint.Command.conclude_agrees` — only the findings matter for it.
-/

import LineLint.Command.Run
import LineLint.Proofs.Report.Severities
import LineLint.Proofs.Tree.Write

set_option relaxedAutoImplicit false
set_option autoImplicit false

namespace LineLint.Command

/-! ### Worlds -/

/-- The tree is well-formed, and the working directory is a directory of it. -/
structure World.WellFormed (world : World) : Prop where
  tree : world.tree.wellFormed = true
  directory : ∃ entries, world.tree.at? world.directory = some (.directory entries)

theorem World.WellFormed.areNames {world : World} (h : world.WellFormed) :
    Tree.AreNames world.directory := by
  obtain ⟨entries, hentries⟩ := h.directory
  exact Tree.areNames_of_at? h.tree hentries

/-! ### Outcomes -/

namespace Outcome

/-- Two outcomes differ in their messages at most. -/
structure Agrees (first second : Outcome) : Prop where
  exitCode_eq : first.exitCode = second.exitCode
  printed_eq : first.printed = second.printed
  tree_eq : first.tree = second.tree

variable {first second third : Outcome}

theorem Agrees.symm (h : first.Agrees second) : second.Agrees first :=
  ⟨h.exitCode_eq.symm, h.printed_eq.symm, h.tree_eq.symm⟩

theorem Agrees.trans (h : first.Agrees second) (h' : second.Agrees third) : first.Agrees third :=
  ⟨h.exitCode_eq.trans h'.exitCode_eq, h.printed_eq.trans h'.printed_eq,
    h.tree_eq.trans h'.tree_eq⟩

theorem Agrees.stdout_eq (h : first.Agrees second) : first.stdout = second.stdout := by
  rw [stdout, stdout, h.printed_eq]

theorem Agrees.written_eq (h : first.Agrees second) (before : Tree) :
    first.written before = second.written before := by
  rw [written, written, h.tree_eq]

end Outcome

variable {world : World} {arguments : List String} {command : Command} {settings : Settings}

/-- The token of the settings is the one of the environment, without the blanks around it. -/
theorem token_of_load {environment : Environment}
    (h : Settings.load environment = .ok settings) :
    settings.token = Settings.stripped environment tokenVariable := by
  unfold Settings.load at h
  dsimp only at h
  split at h
  · cases h
  · split at h
    · cases h
    · cases h
      rfl

/-! ### Arguments that ask for a command -/

/-- Arguments of the program that can be read, and ask for a command. -/
def Asks (arguments : List String) (command : Command) : Prop :=
  ∃ root first rest name, readRoot arguments = some root ∧ root.help = false ∧
    root.version = false ∧ root.rest = first :: rest ∧ Name.ofText? first = some name ∧
    read name rest = some command

theorem run_of_load_error (h : Asks arguments command) {error : SettingsError}
    (hload : Settings.load world.environment = .error error) :
    (run world arguments).Agrees (.failing world.tree (.failure error.message)) ∧
      (run world arguments).request = none := by
  obtain ⟨root, first, rest, name, hroot, hhelp, hversion, hrest, hname, -⟩ := h
  simp only [run, hroot, hhelp, hversion, hrest, hname, hload]
  exact ⟨⟨rfl, rfl, rfl⟩, rfl⟩

theorem run_of_load_ok (h : Asks arguments command)
    (hload : Settings.load world.environment = .ok settings) :
    (run world arguments).Agrees (execute world settings command) ∧
      (run world arguments).request = (execute world settings command).request := by
  obtain ⟨root, first, rest, name, hroot, hhelp, hversion, hrest, hname, hread⟩ := h
  simp only [run, hroot, hhelp, hversion, hrest, hname, hload, asksForHelp_of_read hread, hread]
  exact ⟨⟨rfl, rfl, rfl⟩, rfl⟩

theorem exists_ofGiven (h : Asks arguments command) :
    ∃ name given, ofGiven name given = some command := by
  obtain ⟨-, -, rest, name, -, -, -, -, -, hread⟩ := h
  obtain ⟨given, -, hgiven⟩ := Option.bind_eq_some_iff.1 hread
  exact ⟨name, given, hgiven⟩

theorem one_le_of_positive? {text : String} {value : Int} (h : positive? text = some value) :
    1 ≤ value := by
  unfold positive? at h
  split at h
  · split at h
    · next hle =>
        cases h
        exact hle
    · cases h
  · cases h

/-- The paths that options give have no slashes in their components. -/
theorem unslashed_of_outputOf {given : Given Key} {path : Path}
    (h : outputOf given = some path) : Unslashed path.parts := by
  obtain ⟨text, -, rfl⟩ := Option.map_eq_some_iff.1 h
  exact Path.unslashed_components text.toList

/-- A run over files has at least one job, and saves to a path that was read from a text. -/
theorem Asks.lint {given : LintArguments} (h : Asks arguments (.lint given)) :
    1 ≤ given.jobs ∧
      ∀ path, given.output = some path → Unslashed path.parts := by
  obtain ⟨name, options, hgiven⟩ := exists_ofGiven h
  unfold ofGiven at hgiven
  split at hgiven
  · split at hgiven
    · cases hgiven
    · next jobs hjobs =>
        cases hgiven
        exact ⟨one_le_of_positive? hjobs, fun path => unslashed_of_outputOf⟩
  · cases hgiven
  · split at hgiven <;> cases hgiven
  · cases hgiven
  · cases hgiven

/-- A run over a pull request saves to a path that was read from a text. -/
theorem Asks.pullRequest {given : PullRequestArguments} (h : Asks arguments (.pullRequest given)) :
    ∀ path, given.output = some path → Unslashed path.parts := by
  obtain ⟨name, options, hgiven⟩ := exists_ofGiven h
  unfold ofGiven at hgiven
  split at hgiven
  · split at hgiven <;> cases hgiven
  · cases hgiven
  · split at hgiven
    · cases hgiven
      exact fun path => unslashed_of_outputOf
    · cases hgiven
  · cases hgiven
  · cases hgiven

/-- The severities in the rule set of a run are known. -/
theorem known_of_selectRules {disable : List String} {set : RuleSet}
    (h : selectRules world settings disable = .ok set) : set.Known := by
  unfold selectRules at h
  split at h
  · next hselect =>
      cases h
      exact RuleSet.known_of_select hselect
  · cases h

/-! ### The end of a command -/

/-- The issues are to be saved, and cannot be. -/
def SaveFails (world : World) (issues : List Issue) (output : Option Path) : Prop :=
  ∃ path failure, output = some path ∧
    world.tree.write world.directory path (Payload.write issues) = .error failure

/-- How a command ends that has reported some issues, and saves them if an output is given. -/
structure Concludes (world : World) (report : String) (issues : List Issue)
    (output : Option Path) (outcome : Outcome) : Prop where
  /-- The report is what is printed first. -/
  stdout_eq : ∃ rest, outcome.stdout = shown report ++ rest
  /-- The exit code is one or zero. -/
  exitCode_le : outcome.exitCode ≤ 1
  /-- It is one if there is an error among the issues, or if they cannot be saved. -/
  exitCode_eq_one : outcome.exitCode = 1 ↔
    (∃ issue ∈ issues, issue.severity = "error") ∨ SaveFails world issues output
  /-- If nothing is to be saved, or cannot be, all files stay as they were. -/
  untouched : output = none ∨ SaveFails world issues output →
    world.tree.SameFiles outcome.tree ∧ outcome.written world.tree = []
  /-- Otherwise the issues are in the file at the location of the output, and no other file has
  changed; that one has, unless it had this content before. -/
  saved : ∀ path, output = some path → ¬SaveFails world issues output → ∃ location,
    world.tree.StandsFor world.directory path location ∧
    world.tree.Saves location (Payload.write issues) outcome.tree ∧
    (outcome.written world.tree = [(location, Payload.write issues)] ∨
      world.tree.at? location = some (.file (Payload.write issues)) ∧
        outcome.written world.tree = [])
  /-- What is saved is read back as the issues, if the numbers in them are as short as they have to
  be. -/
  readable : ∀ digits, (∀ issue ∈ issues, Payload.Short digits issue) →
    Payload.read (Payload.write issues) ⟨digits, none⟩ = .ok issues

theorem Concludes.congr {report : String} {issues : List Issue} {output : Option Path}
    {outcome outcome' : Outcome} (h : Concludes world report issues output outcome)
    (hagrees : outcome'.Agrees outcome) : Concludes world report issues output outcome' := by
  obtain ⟨hstdout, hle, hone, huntouched, hsaved, hread⟩ := h
  rw [← hagrees.stdout_eq] at hstdout
  rw [← hagrees.exitCode_eq] at hle hone
  rw [← hagrees.written_eq, ← hagrees.tree_eq] at huntouched hsaved
  exact ⟨hstdout, hle, hone, huntouched, hsaved, hread⟩

theorem stdout_cons (outcome : Outcome) {first : String} {rest : List String}
    (h : outcome.printed = first :: rest) :
    ∃ others, outcome.stdout = shown first ++ others := by
  refine ⟨String.join (rest.map shown), ?_⟩
  rw [Outcome.stdout, h, List.map_cons, String.join_cons]

/-- An outcome that leaves the tree as it was has written no file. -/
theorem written_eq_nil (hwellFormed : world.tree.wellFormed = true) {outcome : Outcome}
    (h : outcome.tree = world.tree) : outcome.written world.tree = [] := by
  rw [Outcome.written, h, (Tree.SameFiles.refl world.tree).changes_eq_nil hwellFormed hwellFormed]

variable {finished finished' : Lint} {printed : List String} {output : Option Path}

section Conclude

variable (hworld : world.WellFormed) (hknown : ∀ issue ∈ finished.findings.issues, issue.Known)
  (report : String) (more : List String) {path : Path}

include hknown

theorem exitCode_toOption_of_known :
    (finished.findings.exitCode.toOption).getD 1 =
      if ∃ issue ∈ finished.findings.issues, issue.severity = "error" then 1 else 0 := by
  rw [Findings.exitCode_of_known hknown]
  rfl

include hworld

/-- Nothing is saved if there is no output. -/
theorem concludes_conclude_none :
    Concludes world report finished.findings.issues none
      (conclude world finished (report :: more) none) := by
  have hfails : ¬SaveFails world finished.findings.issues none := by
    rintro ⟨path, failure, houtput, -⟩
    cases houtput
  simp only [conclude, exitCode_toOption_of_known hknown]
  exact
    { stdout_eq := stdout_cons _ rfl
      exitCode_le := by split <;> simp
      exitCode_eq_one := by simp [hfails]
      untouched := fun _ => ⟨.refl world.tree, written_eq_nil hworld.tree rfl⟩
      saved := fun path houtput => by cases houtput
      readable := fun _ => Payload.read_write_of_known hknown }

/-- A write that fails leaves all files. -/
theorem concludes_conclude_of_error (hparts : Unslashed path.parts) {failure : Tree.WriteFailure}
    (hwrite : world.tree.write world.directory path (Payload.write finished.findings.issues) =
      .error failure) :
    Concludes world report finished.findings.issues (some path)
      (conclude world finished (report :: more) (some path)) := by
  have hfails : SaveFails world finished.findings.issues (some path) :=
    ⟨path, failure, rfl, hwrite⟩
  have hsame : world.tree.SameFiles failure.tree := Tree.sameFiles_of_write_error hwrite
  have htree : failure.tree.wellFormed = true :=
    Tree.wellFormed_of_write_error hparts hworld.areNames hworld.tree hwrite
  simp only [conclude, hwrite]
  exact
    { stdout_eq := stdout_cons _ rfl
      exitCode_le := Nat.le_refl 1
      exitCode_eq_one := by simp [hfails]
      untouched := fun _ => ⟨hsame, hsame.changes_eq_nil hworld.tree htree⟩
      saved := fun path _ hsaves => absurd hfails hsaves
      readable := fun _ => Payload.read_write_of_known hknown }

/-- A write that succeeds changes one file at most. -/
theorem concludes_conclude_of_ok (hparts : Unslashed path.parts) {written : Tree.Written}
    (hwrite : world.tree.write world.directory path (Payload.write finished.findings.issues) =
      .ok written) :
    Concludes world report finished.findings.issues (some path)
      (conclude world finished (report :: more) (some path)) := by
  have hfails : ¬SaveFails world finished.findings.issues (some path) := by
    rintro ⟨path', failure, houtput, hfailure⟩
    cases houtput
    rw [hwrite] at hfailure
    cases hfailure
  obtain ⟨hstands, -, hsaves⟩ := Tree.saves_of_write hwrite
  have htree : written.tree.wellFormed = true :=
    Tree.wellFormed_of_write hparts hworld.areNames hworld.tree hwrite
  simp only [conclude, hwrite, exitCode_toOption_of_known hknown]
  exact
    { stdout_eq := stdout_cons _ rfl
      exitCode_le := by split <;> simp
      exitCode_eq_one := by simp [hfails]
      untouched := fun huntouched => absurd huntouched (by simp [hfails])
      saved := fun path' houtput _ => by
        cases houtput
        exact ⟨written.location, hstands, hsaves, hsaves.changes_cases hworld.tree htree⟩
      readable := fun _ => Payload.read_write_of_known hknown }

/-- **How a command ends** that has printed its report, and found issues whose severities are
known. -/
theorem concludes_conclude (hparts : ∀ path, output = some path → Unslashed path.parts) :
    Concludes world report finished.findings.issues output
      (conclude world finished (report :: more) output) := by
  cases output with
  | none => exact concludes_conclude_none hworld hknown report more
  | some path =>
      have hparts : Unslashed path.parts := hparts path rfl
      cases hwrite : world.tree.write world.directory path
          (Payload.write finished.findings.issues) with
      | error failure => exact concludes_conclude_of_error hworld hknown report more hparts hwrite
      | ok written => exact concludes_conclude_of_ok hworld hknown report more hparts hwrite

end Conclude

/-- What else a run has kept, and what else it saw, does not matter for how it ends. -/
theorem conclude_agrees {world' : World} (htree : world'.tree = world.tree)
    (hdirectory : world'.directory = world.directory)
    (hfindings : finished'.findings = finished.findings) :
    (conclude world' finished' printed output).Agrees (conclude world finished printed output) := by
  unfold conclude
  rw [htree, hdirectory, hfindings]
  cases output with
  | none => exact ⟨rfl, rfl, rfl⟩
  | some path =>
      dsimp only
      split <;> exact ⟨rfl, rfl, rfl⟩

end LineLint.Command
