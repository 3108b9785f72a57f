/-
**What the status of a response decides.**

A status from 400 to 599 refuses a request, whatever the body is.  Every other status is passed
over, not only those from 200 to 299: the response is taken as if its status were 200, and a listing
in its body is linted.

Main results:

* `LineLint.Remote.filesFrom_of_refusal`, `LineLint.Remote.filesFrom_of_no_refusal` — what is made
  of a body, with a status that refuses and with any other;
* `LineLint.Command.run_congr_response` — all that a run takes from a response is its listing;
* `LineLint.Command.pullRequest_refused_by_status` — **which statuses end a run over a pull
  request**;
* `LineLint.Command.pullRequest_lints_listing_of_redirection` — a status of 300 does not.
-/

import LineLint.Proofs.Command.PullRequest

set_option relaxedAutoImplicit false
set_option autoImplicit false

namespace LineLint

namespace Remote

variable {status : Int} {limits : Json.Limits}

/-- A status that refuses gives an error with that status, whatever the body is. -/
theorem filesFrom_of_refusal (h : 400 ≤ status ∧ status ≤ 599) (url : String)
    (body : List UInt8) :
    ∃ detail,
      filesFrom url (.answered status body) limits = .error (.refused url status detail) := by
  rw [filesFrom, if_pos ((isRefusal_iff status).2 h)]
  exact ⟨_, rfl⟩

/-- With any other status the body alone decides. -/
theorem filesFrom_of_no_refusal (h : ¬(400 ≤ status ∧ status ≤ 599)) (url : String)
    (body : List UInt8) :
    filesFrom url (.answered status body) limits = filesFrom url (.answered 200 body) limits := by
  have hsuccess : isRefusal 200 = false := rfl
  rw [filesFrom, filesFrom, if_neg (by rwa [isRefusal_iff]), hsuccess]
  rfl

/-- The statuses with which no body is taken for a listing. -/
theorem forall_error_iff (asked : Request) (pull : PullRequest) (status : Int) :
    (∀ body, ∃ error, (list asked pull (.answered status body)).1 = .error error) ↔
      400 ≤ status ∧ status ≤ 599 := by
  constructor
  · intro h
    by_contra hstatus
    -- a listing without entries is enough
    let body := Text.Utf8.encode "[]"
    have hchars : Text.Utf8.decodeLossyChars body = ['[', ']'] := by decide +kernel
    have hlists : Lists {} (.answered status body) [] :=
      .intro hstatus (by rw [hchars]; rfl) (by simp)
    obtain ⟨listed, hlisted, -⟩ := filesFrom_of_lists hlists asked.url
    obtain ⟨error, herror⟩ := h body
    rw [list, hlisted] at herror
    cases herror
  · intro h body
    obtain ⟨detail, hdetail⟩ := filesFrom_of_refusal h asked.url body
    rw [list, hdetail]
    exact ⟨_, rfl⟩

end Remote

namespace Command

variable {world : World} {arguments : List String} {given : PullRequestArguments}

/-- All that a run takes from a response is its listing. -/
theorem run_congr_response {response response' : Remote.Response}
    (h : ∀ asked pull limits,
      Remote.list asked pull response limits = Remote.list asked pull response' limits)
    (world : World) (arguments : List String) :
    run { world with response := response } arguments =
      run { world with response := response' } arguments := by
  have hexecute (settings : Settings) (command : Command) :
      execute { world with response := response } settings command =
        execute { world with response := response' } settings command := by
    cases command with
    | pullRequest given =>
        have hselect (disable : List String) :
            selectRules { world with response := response } settings disable =
              selectRules { world with response := response' } settings disable := rfl
        simp only [execute, lintPullRequest, h, hselect]
        rfl
    | lint given => rfl
    | complexity path => rfl
    | rules format => rfl
  simp only [run, hexecute]

/-- **Which statuses end a run over a pull request.**  The statuses from 400 to 599 do, whatever the
body is, and no others refuse every body: a run that gets any other status goes on as if it were
200, so a listing in the body is linted. -/
theorem pullRequest_refused_by_status (hwellFormed : world.tree.wellFormed = true)
    (hasks : Asks arguments (.pullRequest given)) (hready : ¬Unprepared world given)
    (status : Int) :
    let outcome := fun body => run { world with response := .answered status body } arguments
    (∀ asked pull, (∀ body, ∃ error,
        (Remote.list asked pull (.answered status body)).1 = .error error) ↔
      400 ≤ status ∧ status ≤ 599) ∧
    (400 ≤ status ∧ status ≤ 599 → ∀ body,
      (outcome body).exitCode = 1 ∧ Aborts world (outcome body)) ∧
    (¬(400 ≤ status ∧ status ≤ 599) → ∀ body,
      outcome body = run { world with response := .answered 200 body } arguments) := by
  intro outcome
  refine ⟨fun asked pull => Remote.forall_error_iff asked pull status, fun h body => ?_,
    fun h body => ?_⟩
  · let world' : World := { world with response := .answered status body }
    obtain ⟨settings, token, set, hload, htoken, hrules⟩ := not_unprepared_iff.1 hready
    have hprepared : Prepared world' given settings token set := ⟨hload, htoken, hrules⟩
    obtain ⟨complaint, hcode, hlint⟩ :=
      lintPullRequest_of_unusable hprepared (.refused body h.1 h.2)
    have hrun : (outcome body).Agrees (execute world' settings (.pullRequest given)) :=
      (run_of_load_ok hasks hprepared.load_eq).1
    have hfailing : (outcome body).Agrees (.failing world.tree complaint) := hrun.trans hlint
    exact ⟨hfailing.exitCode_eq.trans hcode, aborts_of_failing hwellFormed hfailing⟩
  · refine run_congr_response (fun asked pull limits => ?_) world arguments
    rw [Remote.list, Remote.list, Remote.filesFrom_of_no_refusal h]

/-- The same listing with a status that refuses, and with one that does not. -/
theorem pullRequest_refused_by_status_of_two :
    let rule : Rule := { id := "x", pattern := "x", message := "m", severity := "error" }
    let body := Text.Utf8.encode "[\x7b\"filename\":\"a\",\"patch\":\"x\"\x7d]"
    let given : PullRequestArguments := ⟨"o", "r", 7, none, []⟩
    let arguments := ["pr", "-oo", "--repo=r", "-p", "7"]
    let world : World :=
      { tree := .directory []
        directory := []
        environment := [(tokenVariable, "t")]
        response := .failed ""
        catalogue := [rule] }
    let outcome := fun status => run { world with response := .answered status body } arguments
    world.tree.wellFormed = true ∧ Asks arguments (.pullRequest given) ∧
      ¬Unprepared world given ∧ (outcome 404).exitCode = 1 ∧ (outcome 404).stdout = "" ∧
      outcome 302 = outcome 200 := by
  intro rule body given arguments world outcome
  have hwellFormed : world.tree.wellFormed = true := by decide
  have hasks : Asks arguments (.pullRequest given) :=
    ⟨⟨false, false, false, arguments⟩, "pr", arguments.tail, .pullRequest, by decide +kernel⟩
  let set : RuleSet := ⟨[⟨rule, .chars (Pattern.CharClass.literal {} 120)⟩]⟩
  have hready : ¬Unprepared world given :=
    not_unprepared_iff.2 ⟨⟨some "t", defaultApiUrl, [], .warning⟩, "t", set,
      by decide +kernel, rfl, by decide +kernel⟩
  have hrefused := (pullRequest_refused_by_status hwellFormed hasks hready 404).2.1
    (by decide) body
  have hpassed := (pullRequest_refused_by_status hwellFormed hasks hready 302).2.2
    (by decide) body
  exact ⟨hwellFormed, hasks, hready, hrefused.1, hrefused.2.stdout_eq, hpassed⟩

/-- A status of 300 is no success, but the listing that comes with it is linted, reported and
saved. -/
theorem pullRequest_lints_listing_of_redirection :
    let rule : Rule := { id := "x", pattern := "x", message := "m", severity := "warning" }
    let body := Text.Utf8.encode "[\x7b\"filename\":\"a\",\"patch\":\"x\"\x7d]"
    let arguments := ["pr", "-oo", "--repo=r", "-p", "7", "--output", "i"]
    let world : World :=
      { tree := .directory []
        directory := []
        environment := [(tokenVariable, "t")]
        response := .answered 300 body
        catalogue := [rule] }
    let request := Remote.request "t" defaultApiUrl ⟨"o", "r", 7⟩
    (Remote.list request ⟨"o", "r", 7⟩ world.response).1 = .ok [⟨"a", some "x"⟩] ∧
      (run world arguments).request = some request ∧ (run world arguments).exitCode = 0 ∧
      (run world arguments).stdout ≠ "" ∧ (run world arguments).written world.tree ≠ [] := by
  decide +kernel

end Command

end LineLint
