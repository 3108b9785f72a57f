/-
**The order in which workers move is never shown.**

Workers share what is kept of the rules of languages, and each of them may find it empty, fill it,
or find what another one has kept.  Whatever they find there is what the rule set says, so the
issues that a worker ends with are those of a scan of its text alone.  The findings take them in the
order of the texts: they are the same for every number of jobs and for every schedule.

Main definitions:

* `LineLint.Matcher.Used` — the matchers of a rule set after any calls and any steps of workers;
* `LineLint.Findings.addScans` — findings with the scans of some texts, one after the other;
* `LineLint.Worker.Sound`, `LineLint.Pool.Sound` — what every step of a worker keeps.

Main results:

* `LineLint.Pool.Sound.run` — every schedule keeps the pool sound;
* `LineLint.Pool.stepsLeft_finish` — all workers get done;
* `LineLint.Lint.findings_inTurn`, `LineLint.Lint.findings_together` — what one job and several
  find;
* `LineLint.Lint.run_of_two_schedules` — the schedule changes neither what is found nor what is
  said;
* `LineLint.Lint.run_of_any_schedule` — **every number of jobs and every schedule finds the same**.
-/

import LineLint.Lint.Run
import LineLint.Proofs.Scan.Memo

set_option relaxedAutoImplicit false
set_option autoImplicit false

namespace LineLint

/-- The matchers of a rule set: a new one, and what calls make of it, and what workers leave that
have moved in any order, whether they are done or not. -/
inductive Matcher.Used (set : RuleSet) : Matcher → Prop
  | fresh : Used set { rules := set }
  | applicable {matcher : Matcher} (language : Option String) : Used set matcher →
      Used set (matcher.applicable language).2
  | scan {matcher : Matcher} (source text : String) (language : Option String) :
      Used set matcher → Used set (matcher.scan source text language).2
  | workers {matcher : Matcher} (units : List SourceUnit) (schedule : List Nat) :
      Used set matcher → Used set ((Pool.start matcher units).run schedule).matcher

/-- Findings with the scans of some texts, one after the other; each counts one text. -/
def Findings.addScans (findings : Findings) (set : RuleSet) (units : List SourceUnit) : Findings :=
  units.foldl (fun findings unit =>
    findings.add (set.scan unit.source unit.text) (some unit.source)) findings

namespace Findings

variable (findings : Findings) (set : RuleSet)

@[simp] theorem addScans_nil : findings.addScans set [] = findings := rfl

@[simp] theorem addScans_cons (unit : SourceUnit) (units : List SourceUnit) :
    findings.addScans set (unit :: units) =
      (findings.add (set.scan unit.source unit.text) (some unit.source)).addScans set units := rfl

@[simp] theorem issues_addScans (units : List SourceUnit) :
    (findings.addScans set units).issues =
      findings.issues ++ units.flatMap (fun unit => set.scan unit.source unit.text) := by
  induction units generalizing findings with
  | nil => simp
  | cons unit units ih => simp [ih]

@[simp] theorem scanned_addScans (units : List SourceUnit) :
    (findings.addScans set units).scanned = findings.scanned ++ units.map SourceUnit.source := by
  induction units generalizing findings with
  | nil => simp
  | cons unit units ih => simp [ih]

/-- What is found in some texts if nothing was found before. -/
theorem addScans_empty (units : List SourceUnit) :
    ({} : Findings).addScans set units =
      ⟨units.flatMap (fun unit => set.scan unit.source unit.text),
        units.map SourceUnit.source⟩ := by
  rw [Findings.ext_iff, issues_addScans, scanned_addScans]
  exact ⟨List.nil_append _, List.nil_append _⟩

end Findings

/-! ### One worker -/

namespace Worker

variable {set : RuleSet} {memo : Memo} {worker : Worker}

/-- A worker that has something has what the rule set says about its text. -/
def Sound (set : RuleSet) (worker : Worker) : Prop :=
  match worker.phase with
  | .waiting => True
  | .missed language => language = languageFor worker.unit.source
  | .ready rules => rules = set.applicable (languageFor worker.unit.source)
  | .done issues => issues = set.scan worker.unit.source worker.unit.text

/-- The number of steps that a worker may still need. -/
def stepsLeft (worker : Worker) : Nat :=
  match worker.phase with
  | .waiting => 3
  | .missed _ => 2
  | .ready _ => 1
  | .done _ => 0

theorem stepsLeft_le_three (worker : Worker) : worker.stepsLeft ≤ 3 := by
  unfold stepsLeft
  split <;> omega

@[simp] theorem unit_advance : (worker.advance set memo).1.unit = worker.unit := by
  unfold advance
  split
  · split
    · rfl
    · dsimp only
      split <;> rfl
  all_goals rfl

theorem stepsLeft_advance_le :
    (worker.advance set memo).1.stepsLeft ≤ worker.stepsLeft - 1 := by
  unfold advance
  split
  · next hphase =>
      split
      · simp [stepsLeft]
      · dsimp only
        split <;> simp [stepsLeft, hphase]
  · next hphase => simp [stepsLeft, hphase]
  · next hphase => simp [stepsLeft]
  · next hphase => simp [stepsLeft, hphase]

/-- A step of a worker keeps the worker sound, and leaves only true things in what is shared. -/
theorem Sound.advance (hworker : worker.Sound set)
    (hmemo : ∀ entry ∈ memo, entry.2 = set.applicable entry.1) :
    (worker.advance set memo).1.Sound set ∧
      ∀ entry ∈ (worker.advance set memo).2, entry.2 = set.applicable entry.1 := by
  unfold Worker.advance
  split
  · split
    · next hempty => exact ⟨by simp [Sound, RuleSet.scan, scanWith, hempty], hmemo⟩
    · dsimp only
      split
      · next rules hlookup =>
          have hkept := hmemo _ (Matcher.mem_of_lookup_eq_some hlookup)
          exact ⟨by simpa [Sound] using hkept, hmemo⟩
      · exact ⟨by simp [Sound], hmemo⟩
  · next language hphase =>
      have hlanguage : language = languageFor worker.unit.source := by
        simpa [Sound, hphase] using hworker
      refine ⟨?_, List.forall_mem_cons.2 ⟨rfl, hmemo⟩⟩
      simp [Sound, hlanguage]
  · next rules hphase =>
      have hrules : rules = set.applicable (languageFor worker.unit.source) := by
        simpa [Sound, hphase] using hworker
      refine ⟨?_, hmemo⟩
      simp [Sound, hrules, RuleSet.scan, chosenLanguage]
  · exact ⟨hworker, hmemo⟩

/-- A worker that needs no more steps has the issues of its text. -/
theorem Sound.issues_eq (h : worker.Sound set) (hdone : worker.stepsLeft = 0) :
    worker.issues = set.scan worker.unit.source worker.unit.text := by
  unfold stepsLeft at hdone
  split at hdone
  · cases hdone
  · cases hdone
  · cases hdone
  · next found hphase => simpa [Sound, issues, hphase] using h

end Worker

/-! ### All workers -/

namespace Pool

variable {set : RuleSet} {units : List SourceUnit} {pool : Pool}

/-- The workers of some texts, of which each has what the rule set says about its text, and share
only what the rule set says. -/
structure Sound (set : RuleSet) (units : List SourceUnit) (pool : Pool) : Prop where
  rules_eq : pool.rules = set
  memo_eq : ∀ entry ∈ pool.memo, entry.2 = set.applicable entry.1
  units_eq : pool.workers.map Worker.unit = units
  workers : ∀ worker ∈ pool.workers, worker.Sound set

theorem Sound.start {matcher : Matcher} (h : matcher.Faithful set) (units : List SourceUnit) :
    (Pool.start matcher units).Sound set units where
  rules_eq := h.rules_eq
  memo_eq := h.memo_eq
  units_eq := by simp [Pool.start, Function.comp_def]
  workers worker hworker := by
    obtain ⟨unit, -, rfl⟩ := List.mem_map.1 hworker
    trivial

/-- A step of a worker keeps the pool sound. -/
theorem Sound.advance (h : pool.Sound set units) (place : Nat) :
    (pool.advance place).Sound set units := by
  unfold Pool.advance
  split
  · exact h
  · next worker hplace =>
      have hmem : worker ∈ pool.workers := List.mem_of_getElem? hplace
      obtain ⟨hlt, hworker⟩ := List.getElem?_eq_some_iff.1 hplace
      have hstep := (h.workers worker hmem).advance h.memo_eq
      rw [h.rules_eq]
      refine ⟨rfl, hstep.2, ?_, fun other hother => ?_⟩
      · have hlt : place < (pool.workers.map Worker.unit).length := by simpa using hlt
        have hunit : worker.unit = (pool.workers.map Worker.unit)[place] := by simp [hworker]
        rw [List.map_set, Worker.unit_advance, hunit, List.set_getElem_self, h.units_eq]
      · rcases List.mem_or_eq_of_mem_set hother with hother | rfl
        · exact h.workers other hother
        · exact hstep.1

/-- **Every schedule keeps the pool sound.** -/
theorem Sound.run (h : pool.Sound set units) (schedule : List Nat) :
    (pool.run schedule).Sound set units := by
  induction schedule generalizing pool with
  | nil => exact h
  | cons place schedule ih => exact ih (h.advance place)

theorem Sound.faithful (h : pool.Sound set units) : pool.matcher.Faithful set :=
  ⟨h.rules_eq, h.memo_eq⟩

/-! ### All workers get done -/

theorem getElem?_workers_advance (pool : Pool) (place other : Nat) :
    (pool.advance place).workers[other]? =
      if other = place then
        (pool.workers[other]?).map (fun worker => (worker.advance pool.rules pool.memo).1)
      else pool.workers[other]? := by
  unfold Pool.advance
  by_cases heq : other = place
  · subst heq
    cases hplace : pool.workers[other]? with
    | none => simp [hplace]
    | some worker =>
        obtain ⟨hlt, -⟩ := List.getElem?_eq_some_iff.1 hplace
        simp [hlt]
  · cases hplace : pool.workers[place]? with
    | none => simp [heq]
    | some worker => simp [heq, Ne.symm heq]

/-- Every step that a schedule gives a worker brings it nearer to its end, and no other worker can
throw it back. -/
theorem stepsLeft_run_le {schedule : List Nat} {place : Nat} {moved : Worker}
    (h : (pool.run schedule).workers[place]? = some moved) :
    ∃ worker, pool.workers[place]? = some worker ∧
      moved.stepsLeft ≤ worker.stepsLeft - schedule.count place := by
  induction schedule generalizing pool with
  | nil => exact ⟨moved, h, by simp⟩
  | cons first schedule ih =>
      obtain ⟨next, hnext, hle⟩ := @ih (pool.advance first) h
      rw [getElem?_workers_advance] at hnext
      split at hnext
      · next heq =>
          obtain ⟨worker, hworker, rfl⟩ := Option.map_eq_some_iff.1 hnext
          have hstep : (worker.advance pool.rules pool.memo).1.stepsLeft ≤ worker.stepsLeft - 1 :=
            Worker.stepsLeft_advance_le
          have hcount : (first :: schedule).count place = schedule.count place + 1 := by
            rw [heq, List.count_cons_self]
          exact ⟨worker, hworker, by omega⟩
      · next hne =>
          have hcount : (first :: schedule).count place = schedule.count place :=
            List.count_cons_of_ne (Ne.symm hne)
          exact ⟨next, hnext, by omega⟩

theorem stepsLeft_finish (pool : Pool) : ∀ worker ∈ pool.finish.workers, worker.stepsLeft = 0 := by
  intro moved hmoved
  obtain ⟨place, hplace⟩ := List.getElem?_of_mem hmoved
  obtain ⟨worker, hworker, hle⟩ := stepsLeft_run_le hplace
  obtain ⟨hlt, -⟩ := List.getElem?_eq_some_iff.1 hworker
  have hcount : 3 ≤ ((List.range pool.workers.length).flatMap
      (fun place => [place, place, place])).count place := by
    have hsublist : [place, place, place].Sublist ((List.range pool.workers.length).flatMap
        (fun place => [place, place, place])) :=
      List.sublist_flatten_of_mem (List.mem_map.2 ⟨place, List.mem_range.2 hlt, rfl⟩)
    simpa using hsublist.count_le place
  have hthree := worker.stepsLeft_le_three
  omega

/-- Whatever the schedule was, all texts have their issues in the end, in their order. -/
theorem Sound.results_finish (h : pool.Sound set units) :
    pool.finish.results = units.map (fun unit => (unit, set.scan unit.source unit.text)) := by
  have hfinish : pool.finish.Sound set units := h.run _
  rw [← hfinish.units_eq, List.map_map]
  refine List.map_congr_left fun worker hworker => ?_
  have hdone := stepsLeft_finish pool worker hworker
  rw [Function.comp_apply, (hfinish.workers worker hworker).issues_eq hdone]

end Pool

/-- What calls and workers leave in a matcher is what the rule set says. -/
theorem Matcher.Used.faithful {set : RuleSet} {matcher : Matcher} (h : matcher.Used set) :
    matcher.Faithful set := by
  induction h with
  | fresh => exact Reachable.fresh.faithful
  | applicable language _ ih => exact (ih.applicable language).2
  | scan source text language _ ih => exact (ih.scan source text language).2
  | workers units schedule _ ih => exact ((Pool.Sound.start ih units).run schedule).faithful

/-! ### Runs -/

namespace Lint

variable {set : RuleSet} {lint : Lint}

@[simp] theorem findings_collect (lint : Lint) (source : String) (issues : List Issue) :
    (lint.collect source issues).findings = lint.findings.add issues (some source) := rfl

theorem findings_take_found (h : lint.matcher.Faithful set) (unit : SourceUnit) :
    (lint.take (.found unit)).findings =
        lint.findings.add (set.scan unit.source unit.text) (some unit.source) ∧
      (lint.take (.found unit)).matcher.Faithful set := by
  obtain ⟨hissues, hmatcher⟩ := h.scan unit.source unit.text none
  exact ⟨by rw [← hissues]; rfl, hmatcher⟩

/-- One job finds the scans of the texts, one after the other. -/
theorem findings_inTurn (h : lint.matcher.Faithful set) (events : List Event) :
    (lint.inTurn events).findings = lint.findings.addScans set (Event.units events) ∧
      (lint.inTurn events).matcher.Faithful set := by
  induction events generalizing lint with
  | nil => exact ⟨rfl, h⟩
  | cons event events ih =>
      cases event with
      | note entry => exact @ih (lint.take (.note entry)) h
      | found unit =>
          obtain ⟨hfindings, hmatcher⟩ := findings_take_found h unit
          obtain ⟨hrest, hlast⟩ := ih hmatcher
          refine ⟨?_, hlast⟩
          rw [hfindings] at hrest
          exact hrest

theorem foldl_say (entries : List LogEntry) (lint : Lint) :
    entries.foldl say lint = { lint with log := lint.log ++ entries } := by
  induction entries generalizing lint with
  | nil => simp
  | cons entry entries ih => simp [ih, say]

theorem foldl_collect (set : RuleSet) (units : List SourceUnit) (lint : Lint) :
    let results := units.map (fun unit => (unit, set.scan unit.source unit.text))
    let last := results.foldl (fun lint result => lint.collect result.1.source result.2) lint
    last.findings = lint.findings.addScans set units ∧ last.matcher = lint.matcher ∧
      last.log = lint.log ++
        units.map (fun unit => countNote unit.source (set.scan unit.source unit.text)) := by
  induction units generalizing lint with
  | nil => exact ⟨rfl, rfl, (List.append_nil lint.log).symm⟩
  | cons unit units ih =>
      obtain ⟨hfindings, hmatcher, hlog⟩ :=
        ih (lint.collect unit.source (set.scan unit.source unit.text))
      refine ⟨hfindings, hmatcher, hlog.trans ?_⟩
      rw [List.map_cons, List.append_cons]
      rfl

/-- Several jobs find and say the same, whatever the schedule. -/
theorem findings_together (h : lint.matcher.Faithful set) (events : List Event)
    (schedule : List Nat) :
    (lint.together events schedule).findings =
        lint.findings.addScans set (Event.units events) ∧
      (lint.together events schedule).matcher.Faithful set ∧
      (lint.together events schedule).log = lint.log ++ Event.entries events ++
        (Event.units events).map
          (fun unit => countNote unit.source (set.scan unit.source unit.text)) := by
  have hpool := (Pool.Sound.start h (Event.units events)).run schedule
  simp only [together, hpool.results_finish, foldl_say]
  obtain ⟨hfindings, hmatcher, hlog⟩ := foldl_collect set (Event.units events)
    { lint with
      matcher := ((Pool.start lint.matcher (Event.units events)).run schedule).finish.matcher
      log := lint.log ++ Event.entries events }
  refine ⟨hfindings, ?_, hlog⟩
  rw [hmatcher]
  exact (hpool.run _).faithful

/-- The schedule changes nothing of what a run finds and says, and nothing of whether it fails. -/
theorem run_of_two_schedules (h : lint.matcher.Faithful set) (jobs : Int) (events : List Event)
    (schedule schedule' : List Nat) :
    (∃ error, lint.run jobs events schedule = .error error ∧
      lint.run jobs events schedule' = .error error) ∨
    ∃ done done', lint.run jobs events schedule = .ok done ∧
      lint.run jobs events schedule' = .ok done' ∧ done'.findings = done.findings ∧
      done'.log = done.log := by
  obtain ⟨hfindings, -, hlog⟩ := findings_together h events schedule
  obtain ⟨hfindings', -, hlog'⟩ := findings_together h events schedule'
  unfold run
  by_cases hfew : jobs < 1
  · simp only [if_pos hfew]
    exact Or.inl ⟨_, rfl, rfl⟩
  · by_cases hone : jobs = 1
    · simp only [if_neg hfew, if_pos hone]
      exact Or.inr ⟨_, _, rfl, rfl, rfl, rfl⟩
    · simp only [if_neg hfew, if_neg hone]
      exact Or.inr ⟨_, _, rfl, rfl, hfindings'.trans hfindings.symm, hlog'.trans hlog.symm⟩

/-- What any number of jobs finds. -/
theorem exists_run (h : lint.matcher.Faithful set) {jobs : Int} (hjobs : 1 ≤ jobs)
    (events : List Event) (schedule : List Nat) :
    ∃ done, lint.run jobs events schedule = .ok done ∧
      done.findings = lint.findings.addScans set (Event.units events) ∧
      done.matcher.Faithful set := by
  unfold run
  rw [if_neg (by omega)]
  split
  · exact ⟨_, rfl, findings_inTurn h events⟩
  · obtain ⟨hfindings, hmatcher, -⟩ := findings_together h events schedule
    exact ⟨_, rfl, hfindings, hmatcher⟩

/-- What any number of jobs finds with a new matcher, and nothing found before. -/
theorem exists_run_fresh (set : RuleSet) (log : List LogEntry) {jobs : Int} (hjobs : 1 ≤ jobs)
    (events : List Event) (schedule : List Nat) :
    ∃ done, run { matcher := { rules := set }, log := log } jobs events schedule = .ok done ∧
      done.findings =
        ⟨(Event.units events).flatMap (fun unit => set.scan unit.source unit.text),
          (Event.units events).map SourceUnit.source⟩ := by
  obtain ⟨done, hdone, hfindings, -⟩ :=
    @exists_run set { matcher := { rules := set }, log := log } Matcher.Used.fresh.faithful
      jobs hjobs events schedule
  exact ⟨done, hdone, hfindings.trans (Findings.addScans_empty set (Event.units events))⟩

/-- **Every number of jobs and every schedule finds the same.**  A run on a matcher that has been
used in any way ends with what one job ends with: the findings at its beginning, with the scans of
the texts added in their order, and each text counted once.  A limit on how many workers are on
their way at a time only rules schedules out. -/
theorem run_of_any_schedule (h : lint.matcher.Used set) (events : List Event) {jobs : Int}
    (hjobs : 1 ≤ jobs) (schedule : List Nat) :
    ∃ done alone, lint.run jobs events schedule = .ok done ∧ lint.run 1 events = .ok alone ∧
      done.findings = alone.findings ∧
      done.findings = (Event.units events).foldl (fun findings unit =>
        findings.add (lint.matcher.scan unit.source unit.text).1 (some unit.source))
        lint.findings ∧
      done.findings.issues = lint.findings.issues ++
        (Event.units events).flatMap (fun unit =>
          (lint.matcher.scan unit.source unit.text).1) ∧
      done.findings.scanned =
        lint.findings.scanned ++ (Event.units events).map SourceUnit.source := by
  have hscan (unit : SourceUnit) :
      (lint.matcher.scan unit.source unit.text).1 = set.scan unit.source unit.text :=
    (h.faithful.scan unit.source unit.text none).1
  obtain ⟨done, hdone, hfindings, -⟩ := exists_run h.faithful hjobs events schedule
  obtain ⟨alone, halone, hfindings', -⟩ := exists_run h.faithful (Int.le_refl 1) events []
  refine ⟨done, alone, hdone, halone, hfindings.trans hfindings'.symm, ?_, ?_, ?_⟩
  · simp only [hscan, hfindings]
    rfl
  · simp only [hscan, hfindings, Findings.issues_addScans]
  · rw [hfindings, Findings.scanned_addScans]

/-- Two workers both find nothing kept for their language and both keep it, the later text first;
the matcher is shared with a worker that has not come further than to find nothing. -/
theorem run_of_any_schedule_both_miss :
    let rule : Rule := { id := "x", pattern := "x", message := "m", severity := "info" }
    let set : RuleSet := ⟨[⟨rule, .chars (Pattern.CharClass.literal {} 120)⟩]⟩
    let other : Pool := Pool.start { rules := set } [⟨"a.py", "x"⟩]
    let texts : List SourceUnit := [⟨"a.js", "x"⟩, ⟨"b.js", "y\nxx"⟩, ⟨"c.py", ""⟩]
    let lint : Lint := { matcher := (other.run [0]).matcher, findings := ⟨[], ["z"]⟩ }
    lint.matcher.Used set ∧ (1 : Int) ≤ 3 ∧ ∃ done alone,
      lint.run 3 (texts.map .found) [1, 0, 1, 1, 0, 7, 0] = .ok done ∧
      lint.run 1 (texts.map .found) = .ok alone ∧ done.findings = alone.findings ∧
      done.findings.scanned = ["z", "a.js", "b.js", "c.py"] := by
  intro rule set other texts lint
  have hused : lint.matcher.Used set := .workers [⟨"a.py", "x"⟩] [0] .fresh
  have hjobs : (1 : Int) ≤ 3 := by decide
  obtain ⟨done, alone, hdone, halone, hsame, -, -, hscanned⟩ :=
    run_of_any_schedule hused (texts.map .found) hjobs [1, 0, 1, 1, 0, 7, 0]
  refine ⟨hused, hjobs, done, alone, hdone, halone, hsame, ?_⟩
  rw [hscanned, Event.units_map_found]
  rfl

end Lint

end LineLint
