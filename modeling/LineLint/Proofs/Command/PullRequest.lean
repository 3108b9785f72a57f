/-
**A run over a pull request is all or nothing.**

Without settings, a token or rules the hosting service is not asked.  Asked once, it may answer
anything; unless the whole answer is a listing, nothing is printed and nothing is written.
Otherwise every entry of the listing is taken, and the patches among them are linted in their order.

An answer may be a listing by all rules of JSON and still not be taken, because a number in it has
too many digits, or because arrays or objects in it are nested too deeply; it does not matter that
nobody needs this part of the listing.

Main definitions:

* `LineLint.Command.Unprepared`, `LineLint.Command.Prepared` — what keeps a run from asking the
  hosting service, and what it has if nothing does;
* `LineLint.Command.Aborts` — an outcome that shows nothing and changes nothing;
* `LineLint.Command.PreviewsOf` — a report on a pull request and what is in it.

Main results:

* `LineLint.Command.not_unprepared_iff` — a run is kept from asking, or it has all that it needs;
* `LineLint.Command.lintPullRequest_of_unusable`, `LineLint.Command.exists_lintPullRequest` — what
  is made of the response;
* `LineLint.Command.pullRequest_concludes_whole_listing` — **a run over a pull request is all or
  nothing**;
* `LineLint.Command.pullRequest_refuses_listing_with_longNumber` — a listing that is not taken.
-/

import LineLint.Proofs.Command.Outcome
import LineLint.Proofs.Json.Limits
import LineLint.Proofs.Lint.Schedules
import LineLint.Proofs.Remote.Listing
import LineLint.Proofs.Report.Plain
import LineLint.Proofs.Text.Lossy

set_option relaxedAutoImplicit false
set_option autoImplicit false

namespace LineLint.Command

variable {world : World} {arguments : List String} {given : PullRequestArguments}
  {settings : Settings} {token : String} {set : RuleSet}

/-! ### Before the request -/

/-- What keeps a run from asking the hosting service. -/
inductive Unprepared (world : World) (given : PullRequestArguments) : Prop
  /-- The settings cannot be loaded. -/
  | settings {error : SettingsError} : Settings.load world.environment = .error error →
      Unprepared world given
  /-- There is no token, or a blank one. -/
  | token : (∀ value, world.environment.lookup tokenVariable = some value →
      Text.strip value = "") → Unprepared world given
  /-- The rule set cannot be made. -/
  | rules {settings : Settings} {error : RuleError} :
      Settings.load world.environment = .ok settings →
      RuleSet.select world.catalogue { disabled := settings.disabled ++ given.disable }
        world.names = .error error → Unprepared world given

/-- The settings, the token and the rules of a run. -/
structure Prepared (world : World) (given : PullRequestArguments) (settings : Settings)
    (token : String) (set : RuleSet) : Prop where
  load_eq : Settings.load world.environment = .ok settings
  token_eq : settings.requireToken = .ok token
  rules_eq : selectRules world settings given.disable = .ok set

theorem isOk_requireToken (h : Settings.load world.environment = .ok settings) :
    settings.requireToken.isOk = false ↔
      ∀ value, world.environment.lookup tokenVariable = some value → Text.strip value = "" := by
  rw [Settings.requireToken, token_of_load h, Settings.stripped]
  cases world.environment.lookup tokenVariable with
  | none => simp
  | some value => by_cases hblank : Text.strip value = "" <;> simp [hblank]

theorem isOk_selectRules (world : World) (settings : Settings) (disable : List String) :
    (selectRules world settings disable).isOk =
      (RuleSet.select world.catalogue { disabled := settings.disabled ++ disable }
        world.names).isOk := by
  unfold selectRules
  split
  · next h => rw [h]; rfl
  · next h => rw [h]; rfl

/-- A run has its settings, its token and its rules, or something keeps it from asking. -/
theorem not_unprepared_iff : ¬Unprepared world given ↔
    ∃ settings token set, Prepared world given settings token set := by
  constructor
  · intro h
    cases hload : Settings.load world.environment with
    | error error => exact absurd (.settings hload) h
    | ok settings =>
        cases htoken : settings.requireToken with
        | error error =>
            have hblank := (isOk_requireToken hload).1 (by rw [htoken]; rfl)
            exact absurd (.token hblank) h
        | ok token =>
            cases hselect : selectRules world settings given.disable with
            | error complaint =>
                have hrules := isOk_selectRules world settings given.disable
                rw [hselect, isOk_error, eq_comm, isOk_eq_false_iff] at hrules
                obtain ⟨error, hrules⟩ := hrules
                exact absurd (.rules hload hrules) h
            | ok set => exact ⟨settings, token, set, hload, htoken, hselect⟩
  · rintro ⟨settings, token, set, hload, htoken, hselect⟩ h
    cases h with
    | settings herror =>
        rw [hload] at herror
        cases herror
    | token hblank =>
        rw [← isOk_requireToken hload, htoken] at hblank
        cases hblank
    | rules hload' herror =>
        rw [hload] at hload'
        cases hload'
        have hrules := isOk_selectRules world settings given.disable
        rw [hselect, herror] at hrules
        cases hrules

/-- A run that is kept from asking fails before that. -/
theorem run_of_unprepared (hasks : Asks arguments (.pullRequest given))
    (h : Unprepared world given) :
    ∃ complaint, (run world arguments).Agrees (.failing world.tree complaint) ∧
      (run world arguments).request = none := by
  cases hload : Settings.load world.environment with
  | error error => exact ⟨_, run_of_load_error hasks hload⟩
  | ok settings =>
      have hfailing : ∃ complaint,
          execute world settings (.pullRequest given) = .failing world.tree complaint := by
        simp only [execute, lintPullRequest]
        cases htoken : settings.requireToken with
        | error error => exact ⟨_, rfl⟩
        | ok token =>
            cases hselect : selectRules world settings given.disable with
            | error complaint => exact ⟨complaint, rfl⟩
            | ok set =>
                have hprepared : Prepared world given settings token set :=
                  ⟨hload, htoken, hselect⟩
                exact absurd h (not_unprepared_iff.2 ⟨settings, token, set, hprepared⟩)
      obtain ⟨complaint, hfailing⟩ := hfailing
      obtain ⟨hagrees, hrequest⟩ := run_of_load_ok hasks hload
      rw [hfailing] at hagrees hrequest
      exact ⟨complaint, hagrees, hrequest⟩

/-! ### After the request -/

theorem exitCode_listComplaint (error : Remote.Error) : (listComplaint error).exitCode = 1 := by
  cases error <;> rfl

/-- A response that is not taken ends a run. -/
theorem lintPullRequest_of_error (h : Prepared world given settings token set)
    {error : Remote.Error}
    (herror : Remote.filesFrom (Remote.request token settings.apiUrl given.pull).url world.response
      world.limits = .error error) :
    (lintPullRequest world settings given).Agrees (.failing world.tree (listComplaint error)) ∧
      (lintPullRequest world settings given).request =
        some (Remote.request token settings.apiUrl given.pull) := by
  simp only [lintPullRequest, h.token_eq, h.rules_eq, Remote.list, herror]
  exact ⟨⟨rfl, rfl, rfl⟩, trivial⟩

theorem lintPullRequest_of_unusable (h : Prepared world given settings token set)
    (hresponse : Remote.Unusable world.limits world.response) :
    ∃ complaint : Complaint, complaint.exitCode = 1 ∧
      (lintPullRequest world settings given).Agrees (.failing world.tree complaint) := by
  obtain ⟨error, herror⟩ := Remote.filesFrom_of_unusable hresponse
    (Remote.request token settings.apiUrl given.pull).url
  exact ⟨listComplaint error, exitCode_listComplaint error, (lintPullRequest_of_error h herror).1⟩

/-- With a new matcher, the issues of changed files are the scans of their patches. -/
theorem issues_inTurn_events (set : RuleSet) (log : List LogEntry) (listed : List ChangedFile) :
    (Lint.inTurn { matcher := { rules := set }, log := log }
        (ChangedFile.events listed)).findings.issues =
      (listed.filterMap ChangedFile.patched?).flatMap
        (fun unit => set.scan unit.source unit.text) := by
  let start : Lint := { matcher := { rules := set }, log := log }
  have hfresh : start.matcher.Faithful set := Matcher.Used.fresh.faithful
  rw [(Lint.findings_inTurn hfresh (ChangedFile.events listed)).1, Findings.addScans_empty,
    ChangedFile.units_events]

open Report (Piece Section page pullRequestLines) in
/-- A report on a pull request and what is in it: a section for each text, which shows the first
issues of the text.  What is printed are the lines of these, without the styles. -/
structure PreviewsOf (issues : List Issue) (report : String) (parts : List Report.Section) :
    Prop where
  pullRequest_eq : Report.pullRequest issues = .ok report
  sources_eq : parts.map Section.source = Report.sources issues
  covers : ∀ part ∈ parts, part.Covers Report.previewLimit.toNat issues
  shown_eq : shown report = page Piece.bare (pullRequestLines issues.length parts) ++ "\n"

theorem exists_previewsOf {issues : List Issue} (h : ∀ issue ∈ issues, issue.Known) :
    ∃ report parts, PreviewsOf issues report parts := by
  obtain ⟨parts, hsources, hcovers, hreport, hleft⟩ :=
    Report.exists_pullRequest_page h Report.previewLimit.toNat
  exact ⟨_, parts, hreport, hsources, hcovers, by rw [shown, hleft]⟩

/-- A listing is taken whole: its patches are scanned, and the run ends with what was found. -/
theorem exists_lintPullRequest (h : Prepared world given settings token set)
    {entries : List Json.Value} (hlists : Remote.Lists world.limits world.response entries) :
    ∃ listed finished report parts,
      (Remote.list (Remote.request token settings.apiUrl given.pull) given.pull
        world.response world.limits).1 = .ok listed ∧
      List.Forall₂ Remote.Records entries listed ∧
      finished.findings.issues =
        (entries.filterMap Remote.patchText?).flatMap
          (fun unit => set.scan unit.source unit.text) ∧
      (∀ issue ∈ finished.findings.issues, issue.Known) ∧
      PreviewsOf finished.findings.issues report parts ∧
      lintPullRequest world settings given =
        { conclude world finished [report] given.output with
          request := some (Remote.request token settings.apiUrl given.pull) } := by
  obtain ⟨listed, hfiles, hrecords⟩ := Remote.filesFrom_of_lists hlists
    (Remote.request token settings.apiUrl given.pull).url
  let finished := Lint.inTurn
    { matcher := { rules := set }
      log := [builtNote set, Remote.fetching given.pull,
        Remote.received given.pull listed.length] }
    (ChangedFile.events listed)
  have hissues : finished.findings.issues = (entries.filterMap Remote.patchText?).flatMap
      (fun unit => set.scan unit.source unit.text) := by
    rw [issues_inTurn_events, Remote.filterMap_patched? hrecords]
  have hknown : ∀ issue ∈ finished.findings.issues, issue.Known := by
    rw [hissues]
    exact (known_of_selectRules h.rules_eq).scans _
  obtain ⟨report, parts, hpreviews⟩ := exists_previewsOf hknown
  have hreport := hpreviews.pullRequest_eq
  refine ⟨listed, finished, report, parts, by rw [Remote.list, hfiles], hrecords, hissues, hknown,
    hpreviews, ?_⟩
  dsimp only [finished] at hreport
  simp only [lintPullRequest, h.token_eq, h.rules_eq, Remote.list, hfiles, hreport, finished]

/-- Whatever comes back, one request was made. -/
theorem request_lintPullRequest (h : Prepared world given settings token set) :
    (lintPullRequest world settings given).request =
      some (Remote.request token settings.apiUrl given.pull) := by
  cases hfiles : Remote.filesFrom (Remote.request token settings.apiUrl given.pull).url
      world.response world.limits with
  | error error => exact (lintPullRequest_of_error h hfiles).2
  | ok listed =>
      obtain ⟨entries, hlists, -⟩ := Remote.exists_lists_of_filesFrom hfiles
      obtain ⟨-, finished, report, -, -, -, -, -, -, hlint⟩ := exists_lintPullRequest h hlists
      rw [hlint]

/-! ### Whole runs -/

/-- An outcome that shows nothing and changes nothing. -/
structure Aborts (world : World) (outcome : Outcome) : Prop where
  stdout_eq : outcome.stdout = ""
  tree_eq : outcome.tree = world.tree
  written_eq : outcome.written world.tree = []

theorem aborts_of_failing (hwellFormed : world.tree.wellFormed = true) {outcome : Outcome}
    {complaint : Complaint} (h : outcome.Agrees (.failing world.tree complaint)) :
    Aborts world outcome where
  stdout_eq := h.stdout_eq
  tree_eq := h.tree_eq
  written_eq := written_eq_nil hwellFormed h.tree_eq

theorem Complaint.exitCode_ne_zero (complaint : Complaint) : complaint.exitCode ≠ 0 := by
  cases complaint <;> simp [exitCode]

/-- **A run over a pull request is all or nothing.**  If something keeps it from asking the hosting
service, it makes no request, and shows and changes nothing.  Otherwise it makes one request; if the
response has no listing that can be read, it ends with exit code one, and again shows and changes
nothing.  Otherwise, unless there is half a character in the response, every entry of the listing is
taken, in order, and the scans of the patches among them are what is reported, what is saved, and
what decides the exit code. -/
theorem pullRequest_concludes_whole_listing (hworld : world.WellFormed)
    (hasks : Asks arguments (.pullRequest given)) :
    let outcome := run world arguments
    (Unprepared world given →
      outcome.request = none ∧ outcome.exitCode ≠ 0 ∧ Aborts world outcome) ∧
    (¬Unprepared world given → ∃ settings token set, Prepared world given settings token set ∧
      let request := Remote.request token settings.apiUrl given.pull
      outcome.request = some request ∧
      (Remote.Unusable world.limits world.response → outcome.exitCode = 1 ∧
        Aborts world outcome) ∧
      (¬Remote.Unusable world.limits world.response →
        ¬Remote.HoldsHalf world.limits world.response → ∃ entries listed report parts,
        Remote.Lists world.limits world.response entries ∧
        (Remote.list request given.pull world.response world.limits).1 = .ok listed ∧
        List.Forall₂ Remote.Records entries listed ∧
        let issues := (entries.filterMap Remote.patchText?).flatMap
          (fun unit => set.scan unit.source unit.text)
        PreviewsOf issues report parts ∧
        Concludes world report issues given.output outcome)) := by
  intro outcome
  constructor
  · intro h
    obtain ⟨complaint, hagrees, hrequest⟩ := run_of_unprepared hasks h
    have hcode : outcome.exitCode = complaint.exitCode := hagrees.exitCode_eq
    exact ⟨hrequest, hcode ▸ complaint.exitCode_ne_zero, aborts_of_failing hworld.tree hagrees⟩
  · intro h
    obtain ⟨settings, token, set, hprepared⟩ := not_unprepared_iff.1 h
    obtain ⟨hagrees, hrequest⟩ := run_of_load_ok hasks hprepared.load_eq
    rw [execute] at hagrees hrequest
    refine ⟨settings, token, set, hprepared, hrequest.trans (request_lintPullRequest hprepared),
      fun hunusable => ?_, fun husable hhalf => ?_⟩
    · obtain ⟨complaint, hcode, hfailing⟩ := lintPullRequest_of_unusable hprepared hunusable
      have hfailing := hagrees.trans hfailing
      exact ⟨hfailing.exitCode_eq.trans hcode, aborts_of_failing hworld.tree hfailing⟩
    · obtain ⟨entries, hlists⟩ := (Remote.unusable_or_lists hhalf).resolve_left husable
      obtain ⟨listed, finished, report, parts, hlisted, hrecords, hissues, hknown, hpreviews,
        hlint⟩ := exists_lintPullRequest hprepared hlists
      have hconcludes := concludes_conclude hworld hknown report [] hasks.pullRequest
      rw [hlint] at hagrees
      have hconcludes := hconcludes.congr (hagrees.trans ⟨rfl, rfl, rfl⟩)
      rw [hissues] at hpreviews hconcludes
      exact ⟨entries, listed, report, parts, hlists, hlisted, hrecords, hpreviews, hconcludes⟩

/-- Two entries, of which the first has no patch; the second has an error in it. -/
theorem pullRequest_concludes_whole_listing_of_two :
    let rule : Rule := { id := "x", pattern := "x", message := "m", severity := "error" }
    let listing :=
      "[\x7b\"filename\":\"a\",\"patch\":0\x7d,\x7b\"patch\":\"x\",\"filename\":\"b\"\x7d]"
    let given : PullRequestArguments := ⟨"o", "r", 7, none, []⟩
    let arguments := ["pr", "-oo", "--repo=r", "-p", "7"]
    let world : World :=
      { tree := .directory []
        directory := []
        environment := [(tokenVariable, " t ")]
        response := .answered 200 (Text.Utf8.encode listing)
        limits := ⟨some Text.digitLimit, some 970⟩
        catalogue := [rule] }
    world.WellFormed ∧ Asks arguments (.pullRequest given) ∧
      ¬Remote.HoldsHalf world.limits world.response ∧ ¬Unprepared world given ∧
      ¬Remote.Unusable world.limits world.response ∧
      (run world arguments).request = some (Remote.request "t" defaultApiUrl given.pull) ∧
      (run world arguments).exitCode = 1 := by
  intro rule listing given arguments world
  let set : RuleSet := ⟨[⟨rule, .chars (Pattern.CharClass.literal {} 120)⟩]⟩
  let settings : Settings := ⟨some "t", defaultApiUrl, [], .warning⟩
  let request := Remote.request "t" defaultApiUrl given.pull
  have hworld : world.WellFormed := ⟨by decide, [], rfl⟩
  have hasks : Asks arguments (.pullRequest given) :=
    ⟨⟨false, false, false, arguments⟩, "pr", arguments.tail, .pullRequest, by decide +kernel⟩
  have hprepared : Prepared world given settings "t" set :=
    ⟨by decide +kernel, rfl, by decide +kernel⟩
  have hready : ¬Unprepared world given := not_unprepared_iff.2 ⟨settings, "t", set, hprepared⟩
  have hfiles : Remote.filesFrom request.url world.response world.limits =
      .ok [⟨"a", none⟩, ⟨"b", some "x"⟩] := by decide +kernel
  have husable : ¬Remote.Unusable world.limits world.response := by
    intro hunusable
    obtain ⟨error, herror⟩ := Remote.filesFrom_of_unusable hunusable request.url
    rw [hfiles] at herror
    cases herror
  have hhalf : ¬Remote.HoldsHalf world.limits world.response := by
    intro hhalf
    rw [hhalf.filesFrom_eq] at hfiles
    cases hfiles
  obtain ⟨settings', token', set', ⟨hload, htoken, hrules⟩, hrequest, -, hwhole⟩ :=
    (pullRequest_concludes_whole_listing hworld hasks).2 hready
  -- what the run has made of the environment is what is given here
  rw [hprepared.load_eq] at hload
  cases hload
  rw [hprepared.token_eq] at htoken
  cases htoken
  rw [hprepared.rules_eq] at hrules
  cases hrules
  obtain ⟨entries, listed, report, parts, -, hlist, hrecords, -, hconcludes⟩ := hwhole husable hhalf
  rw [Remote.list, hfiles] at hlist
  cases hlist
  rw [← Remote.filterMap_patched? hrecords] at hconcludes
  refine ⟨hworld, hasks, hhalf, hready, husable, hrequest,
    hconcludes.exitCode_eq_one.2 (Or.inl ?_)⟩
  decide +kernel

/-- A member that nobody needs is a number with one digit too many, and the listing is not taken. -/
theorem pullRequest_refuses_listing_with_longNumber :
    let rule : Rule := { id := "x", pattern := "x", message := "m", severity := "warning" }
    let entry : Json.Value := .object
      [("filename", .string "a"), ("n", .int (10 ^ Text.digitLimit)), ("patch", .string "x")]
    let given : PullRequestArguments := ⟨"o", "r", 7, none, []⟩
    let arguments := ["pr", "-oo", "--repo=r", "-p", "7"]
    let world : World :=
      { tree := .directory []
        directory := []
        environment := [(tokenVariable, "t")]
        response := .answered 200
          (Text.Utf8.encode ((Json.Value.array [entry]).indented ++ "\n"))
        limits := ⟨some Text.digitLimit, none⟩
        catalogue := [rule] }
    Asks arguments (.pullRequest given) ∧ ¬Unprepared world given ∧
      Remote.Lists {} world.response [entry] ∧
      [entry].filterMap Remote.patchText? = [⟨"a", "x"⟩] ∧
      (run world arguments).exitCode = 1 ∧ (run world arguments).stdout = "" := by
  intro rule entry given arguments world
  let set : RuleSet := ⟨[⟨rule, .chars (Pattern.CharClass.literal {} 120)⟩]⟩
  let settings : Settings := ⟨some "t", defaultApiUrl, [], .warning⟩
  let request := Remote.request "t" defaultApiUrl given.pull
  have hasks : Asks arguments (.pullRequest given) :=
    ⟨⟨false, false, false, arguments⟩, "pr", arguments.tail, .pullRequest, by decide +kernel⟩
  have hprepared : Prepared world given settings "t" set :=
    ⟨by decide +kernel, rfl, by decide +kernel⟩
  have hready : ¬Unprepared world given := not_unprepared_iff.2 ⟨settings, "t", set, hprepared⟩
  have hplain : Json.Plain none (.array [entry]) := by
    refine .array (List.forall_mem_singleton.2 (.object (by decide) ?_))
    simp only [List.forall_mem_cons, List.not_mem_nil, false_implies, implies_true, and_true]
    exact ⟨.string "a", .int nofun, .string "x"⟩
  let body := Text.Utf8.encode ((Json.Value.array [entry]).indented ++ "\n")
  have hparse : Json.parse (Text.Utf8.decodeLossyChars body) = .ok (.array [entry]) := by
    rw [Text.Utf8.decodeLossyChars_encode, String.toList_append, Json.Value.indented,
      String.toList_ofList]
    exact Json.parse_indented hplain
  have hnamed : Remote.Named entry := ⟨_, "a", rfl, rfl, by decide⟩
  have hlists : Remote.Lists {} world.response [entry] :=
    .intro (by decide) hparse (List.forall_mem_singleton.2 hnamed)
  have hlong : ¬Json.AllShort (some Text.digitLimit) (.array [entry]) := by
    intro hall
    have hentry := hall.of_array entry List.mem_cons_self
    have hnumber := hentry.of_object ("n", .int (10 ^ Text.digitLimit)) (by simp)
    exact Json.not_short_pow Text.digitLimit hnumber.of_int
  have herror : ∃ error, Remote.filesFrom request.url world.response world.limits =
      .error error := by
    cases hfiles : Remote.filesFrom request.url world.response world.limits with
    | error error => exact ⟨error, rfl⟩
    | ok listed =>
        obtain ⟨entries, ⟨-, hlimited, -⟩, -⟩ := Remote.exists_lists_of_filesFrom hfiles
        have hshort := Json.allShort_of_parse hlimited
        rw [Json.parse_unlimited hlimited] at hparse
        cases hparse
        exact absurd hshort hlong
  obtain ⟨error, herror⟩ := herror
  have hfailing := (run_of_load_ok hasks hprepared.load_eq).1.trans
    (lintPullRequest_of_error hprepared herror).1
  exact ⟨hasks, hready, hlists, by decide +kernel,
    hfailing.exitCode_eq.trans (exitCode_listComplaint error), hfailing.stdout_eq⟩

end LineLint.Command
