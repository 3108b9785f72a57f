/-
**The token goes into one header of the request, and nowhere else.**

Of two worlds that differ in the token only, no command can show which one it has run in.  The
commands that need no token do not even notice whether there is one.  A run over a pull request does
notice; if there is a token in both worlds, the requests differ in the header that carries it, and
everything else is the same.  In which order workers move does not matter either.

A run may be ended by a failure that no command expects.  Both worlds end in the same one then.  What
is shown of it is not up to the program; if it tells where the run ended and why, and no values of
variables, it is the same too.

Main definitions:

* `LineLint.Command.World.AlikeButToken` — **worlds that differ in the token**;
* `LineLint.Command.Outcome.LooksLike` — outcomes that look the same from outside;
* `LineLint.Remote.Request.SameBut` — requests that differ in the token.

Main results:

* `LineLint.Command.load_alike` — the settings of such worlds differ in the token;
* `LineLint.Command.execute_alike`, `LineLint.Command.lintPullRequest_alike` — what commands make of
  such worlds and settings;
* `LineLint.Command.run_alike` — what the whole program makes of them;
* `LineLint.Command.run_hides_token` — **no outcome shows the token**.
-/

import LineLint.Proofs.Command.Outcome
import LineLint.Proofs.Lint.Schedules
import Mathlib.Data.Option.Basic

set_option relaxedAutoImplicit false
set_option autoImplicit false

namespace LineLint

/-- Two requests that are the same but for the tokens in their headers. -/
structure Remote.Request.SameBut (token token' : String) (first second : Remote.Request) :
    Prop where
  url_eq : first.url = second.url
  perPage_eq : first.perPage = second.perPage
  headers_eq : ∃ others,
    first.headers = ("Authorization", "Bearer " ++ token) :: others ∧
    second.headers = ("Authorization", "Bearer " ++ token') :: others ∧
    ∀ header ∈ others, header.1 ≠ "Authorization"

theorem Remote.sameBut_request (token token' apiUrl : String) (pull : PullRequest) :
    Request.SameBut token token' (request token apiUrl pull) (request token' apiUrl pull) :=
  ⟨rfl, rfl, _, rfl, rfl, by decide⟩

namespace Command

/-- Two worlds that differ in the token of the environment, and in the order in which the workers of
a run move, at most. -/
structure World.AlikeButToken (first second : World) : Prop where
  tree_eq : first.tree = second.tree
  directory_eq : first.directory = second.directory
  faults_eq : first.faults = second.faults
  response_eq : first.response = second.response
  limits_eq : first.limits = second.limits
  catalogue_eq : first.catalogue = second.catalogue
  names_eq : first.names = second.names
  help_eq : first.help = second.help
  lookup_eq : ∀ key, key ≠ tokenVariable →
    first.environment.lookup key = second.environment.lookup key

namespace Outcome

/-- Two outcomes that look the same from outside, up to what was requested. -/
structure LooksLike (first second : Outcome) : Prop where
  exitCode_eq : first.exitCode = second.exitCode
  stdout_eq : first.stdout = second.stdout
  messages_eq : first.messages = second.messages
  complaint_eq : first.complaint = second.complaint
  /-- If the runs are ended by a failure, this is under the condition that what is shown of it is
  the same. -/
  stderr_eq : ∀ traceback traceback' : Crash → String,
    (∀ cause, first.complaint = some (.crash cause) → traceback cause = traceback' cause) →
    first.stderr traceback = second.stderr traceback'
  tree_eq : first.tree = second.tree
  written_eq : ∀ before, first.written before = second.written before

/-- Two outcomes whose requests are related, and that do not differ in anything else. -/
structure AlikeBut (related : Option Remote.Request → Option Remote.Request → Prop)
    (first second : Outcome) : Prop where
  eq_with : second = { first with request := second.request }
  requests : related first.request second.request

variable {related : Option Remote.Request → Option Remote.Request → Prop}
  {first second : Outcome}

/-- What is shown of a failure that ends the run is the only text that is not up to the outcome. -/
theorem stderr_congr {outcome : Outcome} {traceback traceback' : Crash → String}
    (h : ∀ cause, outcome.complaint = some (.crash cause) → traceback cause = traceback' cause) :
    outcome.stderr traceback = outcome.stderr traceback' := by
  unfold stderr
  cases hcomplaint : outcome.complaint with
  | none => rfl
  | some complaint =>
      cases complaint with
      | crash cause => simp [Complaint.text, h cause hcomplaint]
      | usage => rfl
      | badValue option reason => rfl
      | failure reason => rfl

theorem AlikeBut.looksLike (h : first.AlikeBut related second) : first.LooksLike second := by
  rw [h.eq_with]
  exact ⟨rfl, rfl, rfl, rfl, fun _ _ htraceback => stderr_congr htraceback, rfl, fun _ => rfl⟩

theorem AlikeBut.withLevel (h : first.AlikeBut related second) (level : Level) :
    { first with level := level }.AlikeBut related { second with level := level } :=
  ⟨congrArg (fun outcome => { outcome with level := level }) h.eq_with, h.requests⟩

/-- An outcome without a request is like itself. -/
theorem AlikeBut.refl (hnone : related none none) {outcome : Outcome}
    (h : outcome.request = none) : outcome.AlikeBut related outcome :=
  ⟨rfl, h ▸ hnone⟩

end Outcome

open Outcome (AlikeBut)

variable {first second : World} {settings : Settings}

/-! ### Settings -/

/-- Such worlds are the same but for the environment and the schedule. -/
theorem World.AlikeButToken.eq_with (h : first.AlikeButToken second) :
    second = { first with environment := second.environment, schedule := second.schedule } := by
  obtain ⟨htree, hdirectory, hfaults, hresponse, hlimits, hcatalogue, hnames, hhelp, -⟩ := h
  cases first
  cases second
  simp_all

/-- The settings of such worlds differ in the token, or are refused for the same reason. -/
theorem load_alike (h : first.AlikeButToken second) :
    Settings.load second.environment =
      (Settings.load first.environment).map fun settings =>
        { settings with token := Settings.stripped second.environment tokenVariable } := by
  have hapiUrl := h.lookup_eq apiUrlVariable (by decide)
  have hdisable := h.lookup_eq disableVariable (by decide)
  have hlevel := h.lookup_eq levelVariable (by decide)
  have hstripped : Settings.stripped second.environment apiUrlVariable =
      Settings.stripped first.environment apiUrlVariable := by
    rw [Settings.stripped, Settings.stripped, hapiUrl]
  have hlevelOf : Settings.levelOf second.environment = Settings.levelOf first.environment := by
    rw [Settings.levelOf, Settings.levelOf, hlevel]
  simp only [Settings.load, hstripped, hlevelOf, hdisable]
  split
  · rfl
  · split <;> rfl

/-! ### Commands -/

/-- The end of a command takes nothing from the world that such worlds differ in. -/
theorem conclude_eq_of_alike (h : first.AlikeButToken second) {finished finished' : Lint}
    (hfindings : finished'.findings = finished.findings) (hlog : finished'.log = finished.log)
    (printed : List String) (output : Option Path) :
    conclude second finished' printed output = conclude first finished printed output := by
  rw [h.eq_with]
  unfold conclude
  rw [hfindings, hlog]

theorem lintFiles_alike (h : first.AlikeButToken second) (settings : Settings)
    (token : Option String) (given : LintArguments) :
    lintFiles second { settings with token := token } given = lintFiles first settings given := by
  have hselect : selectRules second { settings with token := token } given.disable =
      selectRules first settings given.disable := by
    rw [h.eq_with]
    rfl
  unfold lintFiles
  rw [hselect, ← h.tree_eq, ← h.directory_eq, ← h.faults_eq]
  cases selectRules first settings given.disable with
  | error complaint => rfl
  | ok set =>
      let start : Lint :=
        { matcher := { rules := set }, log := [builtNote set, lintingNote given set] }
      let events := Traversal.fromPaths
        ⟨first.tree, first.directory, given.exclude, first.faults⟩ given.recursive given.paths
      have hfresh : start.matcher.Faithful set := Matcher.Used.fresh.faithful
      rcases Lint.run_of_two_schedules hfresh given.jobs events first.schedule second.schedule with
        ⟨error, hran, hran'⟩ | ⟨finished, finished', hran, hran', hfindings, hlog⟩
      · simp only [start, events] at hran hran'
        simp only [hran, hran']
      · simp only [start, events] at hran hran'
        simp only [hran, hran', hfindings]
        cases Report.human finished.findings with
        | error error => rfl
        | ok report => exact conclude_eq_of_alike h hfindings hlog _ given.output

/-- A command that needs no token gives the same in such worlds, and asks for nothing. -/
theorem execute_alike (h : first.AlikeButToken second) (settings : Settings)
    (token : Option String) {command : Command}
    (hcommand : ∀ given, command ≠ .pullRequest given) :
    execute second { settings with token := token } command = execute first settings command := by
  cases command with
  | lint given => exact lintFiles_alike h settings token given
  | complexity path =>
      rw [h.eq_with]
      rfl
  | pullRequest given => exact absurd rfl (hcommand given)
  | rules format =>
      rw [h.eq_with]
      rfl

theorem request_conclude (world : World) (finished : Lint) (printed : List String)
    (output : Option Path) : (conclude world finished printed output).request = none := by
  unfold conclude
  cases output with
  | none => rfl
  | some path =>
      dsimp only
      split <;> rfl

theorem request_execute (world : World) (settings : Settings) {command : Command}
    (hcommand : ∀ given, command ≠ .pullRequest given) :
    (execute world settings command).request = none := by
  cases command with
  | lint given =>
      simp only [execute, lintFiles]
      split
      · rfl
      · split
        · rfl
        · split
          · rfl
          · exact request_conclude ..
  | complexity path =>
      simp only [execute, measure]
      split
      · rfl
      · split <;> rfl
  | pullRequest given => exact absurd rfl (hcommand given)
  | rules format =>
      simp only [execute, listRules]
      split
      · rfl
      · split <;> rfl

/-- A run over a pull request with one token or another makes the same request but for the token,
and gives the same. -/
theorem lintPullRequest_alike (h : first.AlikeButToken second) (settings : Settings)
    (token token' : String) (given : PullRequestArguments) :
    (lintPullRequest first { settings with token := some token } given).AlikeBut
      (Option.Rel (Remote.Request.SameBut token token'))
      (lintPullRequest second { settings with token := some token' } given) := by
  have hselect : selectRules second { settings with token := some token' } given.disable =
      selectRules first { settings with token := some token } given.disable := by
    rw [h.eq_with]
    rfl
  let request := Remote.request token settings.apiUrl given.pull
  let request' := Remote.request token' settings.apiUrl given.pull
  have hrequests := Option.Rel.some
    (Remote.sameBut_request token token' settings.apiUrl given.pull)
  -- what is made of the response depends on the address, which has no token in it
  have hlist : Remote.list request' given.pull second.response second.limits =
      Remote.list request given.pull first.response first.limits := by
    rw [← h.response_eq, ← h.limits_eq]
    rfl
  simp only [request, request'] at hlist
  simp only [lintPullRequest, Settings.requireToken, hselect, hlist, ← h.tree_eq]
  cases selectRules first { settings with token := some token } given.disable with
  | error complaint => exact ⟨rfl, .none⟩
  | ok set =>
      dsimp only
      split
      · exact ⟨rfl, hrequests⟩
      · split
        · exact ⟨rfl, hrequests⟩
        · next report _ =>
            rw [conclude_eq_of_alike h rfl rfl]
            exact ⟨rfl, hrequests⟩

/-! ### The program -/

/-- **What the program makes of such worlds** is decided by what the command does. -/
theorem run_alike {related : Option Remote.Request → Option Remote.Request → Prop}
    (hnone : related none none) (h : first.AlikeButToken second) (arguments : List String)
    (hexecute : ∀ settings command, Asks arguments command →
      Settings.load first.environment = .ok settings →
      let token := Settings.stripped second.environment tokenVariable
      (execute first settings command).AlikeBut related
        (execute second { settings with token := token } command)) :
    (run first arguments).AlikeBut related (run second arguments) := by
  have hfailing (complaint : Complaint) :
      (Outcome.failing first.tree complaint).AlikeBut related
        (.failing second.tree complaint) := by
    rw [← h.tree_eq]
    exact .refl hnone rfl
  have hshowing (text : String) :
      (Outcome.showing first.tree text).AlikeBut related (.showing second.tree text) := by
    rw [← h.tree_eq]
    exact .refl hnone rfl
  unfold run
  rw [load_alike h]
  cases hroot : readRoot arguments with
  | none => exact hfailing .usage
  | some root =>
      dsimp only
      split
      · rw [← h.help_eq]
        exact hshowing (first.help none)
      · next hhelp =>
          split
          · exact hshowing Remote.version
          · next hversion =>
              cases hrest : root.rest with
              | nil => exact hfailing .usage
              | cons word rest =>
                  dsimp only
                  cases hname : Name.ofText? word with
                  | none => exact hfailing .usage
                  | some name =>
                      dsimp only
                      cases hload : Settings.load first.environment with
                      | error error => exact hfailing (.failure error.message)
                      | ok settings =>
                          dsimp only [Except.map]
                          split
                          · rw [← h.help_eq]
                            exact hshowing (first.help (some name))
                          · cases hread : read name rest with
                            | none => exact hfailing .usage
                            | some command =>
                                have hasks : Asks arguments command :=
                                  ⟨root, word, rest, name, hroot, by simpa using hhelp,
                                    by simpa using hversion, hrest, hname, hread⟩
                                exact (hexecute settings command hasks hload).withLevel _

theorem stripped_eq_some {environment : Environment} {key value : String}
    (h : environment.lookup key = some value) (hblank : Text.strip value ≠ "") :
    Settings.stripped environment key = some (Text.strip value) := by
  simp [Settings.stripped, h, hblank]

/-- **No outcome shows the token.**  Let two worlds differ in the token of the environment, and in
the order in which workers move, at most.  Unless the arguments ask for a run over a pull request,
the outcomes look the same, whether there is a token or not, and nothing is requested.  If the token
is not blank in both worlds, the outcomes look the same for all arguments, and there is no request
in both or the same one in both, but for the header that carries the token. -/
theorem run_hides_token (h : first.AlikeButToken second) (arguments : List String) :
    ((∀ given, ¬Asks arguments (.pullRequest given)) →
      (run first arguments).LooksLike (run second arguments) ∧
        (run first arguments).request = none ∧ (run second arguments).request = none) ∧
    ∀ value value', first.environment.lookup tokenVariable = some value →
      second.environment.lookup tokenVariable = some value' →
      Text.strip value ≠ "" → Text.strip value' ≠ "" →
      (run first arguments).LooksLike (run second arguments) ∧
        Option.Rel (Remote.Request.SameBut (Text.strip value) (Text.strip value'))
          (run first arguments).request (run second arguments).request := by
  constructor
  · intro hother
    have halike : (run first arguments).AlikeBut
        (fun asked asked' => asked = none ∧ asked' = none) (run second arguments) := by
      refine run_alike ⟨rfl, rfl⟩ h arguments fun settings command hasks _ => ?_
      have hcommand : ∀ given, command ≠ .pullRequest given := by
        rintro given rfl
        exact hother given hasks
      dsimp only
      rw [execute_alike h settings _ hcommand]
      exact .refl ⟨rfl, rfl⟩ (request_execute first settings hcommand)
    exact ⟨halike.looksLike, halike.requests⟩
  · intro value value' hvalue hvalue' hblank hblank'
    have hstripped := stripped_eq_some hvalue hblank
    have hstripped' := stripped_eq_some hvalue' hblank'
    have halike : (run first arguments).AlikeBut
        (Option.Rel (Remote.Request.SameBut (Text.strip value) (Text.strip value')))
        (run second arguments) := by
      refine run_alike .none h arguments fun settings command _ hload => ?_
      have htoken : settings.token = some (Text.strip value) :=
        (token_of_load hload).trans hstripped
      have hsettings : settings = { settings with token := some (Text.strip value) } := by
        rw [← htoken]
      dsimp only
      rw [hstripped']
      by_cases hcommand : ∀ given, command ≠ .pullRequest given
      · rw [execute_alike h settings _ hcommand]
        exact .refl .none (request_execute first settings hcommand)
      · simp only [not_forall, not_not] at hcommand
        obtain ⟨given, rfl⟩ := hcommand
        have hpair := lintPullRequest_alike h settings (Text.strip value) (Text.strip value') given
        rw [← hsettings] at hpair
        exact hpair
    exact ⟨halike.looksLike, halike.requests⟩

/-- Two tokens with blanks around them, a response that refuses, and all messages shown. -/
theorem run_hides_token_of_two :
    let rule : Rule := { id := "x", pattern := "x", message := "m", severity := "error" }
    let first : World :=
      { tree := .directory []
        directory := []
        environment := [(tokenVariable, " one "), (levelVariable, "debug")]
        response := .answered 401 (Text.Utf8.encode "Bad credentials\n")
        catalogue := [rule] }
    let second : World :=
      { first with
        environment := [(levelVariable, "debug"), (tokenVariable, "other\n")]
        schedule := [1, 0] }
    let arguments := ["pr", "-oo", "--repo=r", "-p", "7"]
    first.AlikeButToken second ∧
      first.environment.lookup tokenVariable = some " one " ∧
      second.environment.lookup tokenVariable = some "other\n" ∧
      Text.strip " one " ≠ "" ∧ Text.strip "other\n" ≠ "" ∧
      (∀ traceback, (run first arguments).stderr traceback =
        (run second arguments).stderr traceback) ∧
      (run first arguments).request =
        some (Remote.request "one" defaultApiUrl ⟨"o", "r", 7⟩) ∧
      Option.Rel (Remote.Request.SameBut (Text.strip " one ") (Text.strip "other\n"))
        (run first arguments).request (run second arguments).request := by
  intro rule first second arguments
  have halike : first.AlikeButToken second :=
    { tree_eq := rfl
      directory_eq := rfl
      faults_eq := rfl
      response_eq := rfl
      limits_eq := rfl
      catalogue_eq := rfl
      names_eq := rfl
      help_eq := rfl
      lookup_eq := fun key hkey => by
        simp [first, second, List.lookup_cons, beq_eq_false_iff_ne.2 hkey] }
  have hblank : Text.strip " one " ≠ "" := by decide +kernel
  have hblank' : Text.strip "other\n" ≠ "" := by decide +kernel
  have hrequest : (run first arguments).request =
      some (Remote.request "one" defaultApiUrl ⟨"o", "r", 7⟩) := by decide +kernel
  obtain ⟨hlooks, hrequests⟩ :=
    (run_hides_token halike arguments).2 " one " "other\n" rfl rfl hblank hblank'
  exact ⟨halike, rfl, rfl, hblank, hblank',
    fun traceback => hlooks.stderr_eq traceback traceback fun _ _ => rfl, hrequest, hrequests⟩

end Command

end LineLint
