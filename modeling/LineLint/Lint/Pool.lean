/-
**Scanning with several workers.**

Every text has a worker.  A worker looks for the rules of its language among those that are kept,
works them out and keeps them if there are none, and scans.  Workers move one step at a time in an
order that nothing fixes, and share what is kept; two of them may both find nothing and both work
it out.  The issues are put together in the order of the texts.

Main definitions:

* `LineLint.Pool`, `LineLint.Pool.advance` — the workers, and a step of one of them;
* `LineLint.Pool.run` — the steps of a schedule;
* `LineLint.Pool.finish` — all remaining steps;
* `LineLint.Pool.results` — the issues of every text, in the order of the texts.
-/

import LineLint.Matcher
import LineLint.Source

set_option relaxedAutoImplicit false
set_option autoImplicit false

namespace LineLint

/-- How far a worker has come. -/
inductive Phase where
  /-- It has not begun. -/
  | waiting
  /-- It has found nothing kept for its language. -/
  | missed (language : Option String)
  /-- It has the rules to scan with. -/
  | ready (rules : List CompiledRule)
  /-- It has the issues of its text. -/
  | done (issues : List Issue)

/-- A worker with its text. -/
structure Worker where
  unit : SourceUnit
  phase : Phase := .waiting

/-- The workers of a run, and what they share. -/
structure Pool where
  rules : RuleSet
  memo : Memo
  workers : List Worker

namespace Worker

/-- A step of a worker, given what is kept. -/
def advance (rules : RuleSet) (memo : Memo) (worker : Worker) : Worker × Memo :=
  match worker.phase with
  | .waiting =>
    if worker.unit.text.isEmpty then
      ({ worker with phase := .done [] }, memo)
    else
      let language := languageFor worker.unit.source
      match memo.lookup language with
      | some found => ({ worker with phase := .ready found }, memo)
      | none => ({ worker with phase := .missed language }, memo)
  | .missed language =>
    let found := rules.applicable language
    ({ worker with phase := .ready found }, (language, found) :: memo)
  | .ready found =>
    ({ worker with phase := .done (scanWith found worker.unit.source worker.unit.text) }, memo)
  | .done _ => (worker, memo)

/-- The issues that a worker has. -/
def issues (worker : Worker) : List Issue :=
  match worker.phase with
  | .done issues => issues
  | _ => []

end Worker

namespace Pool

/-- The pool for some texts, in which no worker has begun. -/
def start (matcher : Matcher) (units : List SourceUnit) : Pool :=
  ⟨matcher.rules, matcher.memo, units.map (fun unit => { unit := unit })⟩

/-- A step of the worker with a given place; a place without a worker is passed over. -/
def advance (pool : Pool) (place : Nat) : Pool :=
  match pool.workers[place]? with
  | none => pool
  | some worker =>
    let (moved, memo) := worker.advance pool.rules pool.memo
    { pool with memo := memo, workers := pool.workers.set place moved }

/-- The steps of a schedule. -/
def run (pool : Pool) (schedule : List Nat) : Pool := schedule.foldl advance pool

/-- All steps that may be left, text by text: no worker needs more than three. -/
def finish (pool : Pool) : Pool :=
  pool.run ((List.range pool.workers.length).flatMap (fun place => [place, place, place]))

/-- The issues of every text, in the order of the texts. -/
def results (pool : Pool) : List (SourceUnit × List Issue) :=
  pool.workers.map (fun worker => (worker.unit, worker.issues))

/-- The matcher with what the workers kept. -/
def matcher (pool : Pool) : Matcher := ⟨pool.rules, pool.memo⟩

end Pool

end LineLint
