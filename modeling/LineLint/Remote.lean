/-
**Asking the hosting service for the files of a pull request.**

One request asks for the first hundred files.  Anything but a well-formed listing is an error, so a
part of a listing is never linted.

Main definitions:

* `LineLint.Remote.PullRequest` — which pull request;
* `LineLint.Remote.Request`, `LineLint.Remote.Response` — the request, and what comes back;
* `LineLint.Remote.files` — the changed files of a listing;
* `LineLint.Remote.list` — the changed files of a pull request, given the response.
-/

import LineLint.Json.Parser
import LineLint.Patch
import LineLint.Text.Blank
import LineLint.Text.Utf8

set_option relaxedAutoImplicit false
set_option autoImplicit false

namespace LineLint.Remote

/-- The version of the program. -/
def version : String := "1.0.0"

/-- A pull request. -/
structure PullRequest where
  owner : String
  repo : String
  number : Int
  deriving Repr

/-- A pull request in messages. -/
def PullRequest.label (pull : PullRequest) : String :=
  pull.owner ++ "/" ++ pull.repo ++ "#" ++ Text.integer pull.number

/-- A request to the hosting service. -/
structure Request where
  url : String
  perPage : Nat
  headers : List (String × String)
  deriving DecidableEq, Repr

/-- What comes back from the hosting service. -/
inductive Response where
  /-- Nothing: the request failed for the given reason. -/
  | failed (reason : String)
  /-- An answer with a status and a body. -/
  | answered (status : Int) (body : List UInt8)

/-- The text without the slashes at its end. -/
def withoutLastSlashes (text : String) : String :=
  String.ofList (text.toList.reverse.dropWhile (· == '/')).reverse

/-- The request for the files of a pull request. -/
def request (token apiUrl : String) (pull : PullRequest) : Request :=
  { url := withoutLastSlashes apiUrl ++ "/repos/" ++ pull.owner ++ "/" ++ pull.repo ++ "/pulls/" ++
      Text.integer pull.number ++ "/files"
    perPage := 100
    headers :=
      [("Authorization", "Bearer " ++ token),
       ("Accept", "application/vnd.github+json"),
       ("X-GitHub-Api-Version", "2022-11-28"),
       ("User-Agent", "code-linter/" ++ version)] }

/-- Why there is no listing. -/
inductive Error where
  /-- The request failed. -/
  | failed (url reason : String)
  /-- The status of the answer says that there is none. -/
  | refused (url : String) (status : Int) (detail : String)
  /-- The body is no JSON text. -/
  | notJson (url : String)
  /-- The reading of the body breaks off. -/
  | crash (cause : Crash)
  /-- The body is no array of objects. -/
  | notListing
  /-- An entry has no file name. -/
  | noFilename
  deriving DecidableEq, Repr

/-- The message when there is no listing. -/
def Error.message : Error → String
  | .failed url reason => "Failed request to " ++ url ++ ": " ++ reason
  | .refused url status detail =>
    "HTTP " ++ Text.integer status ++ " for " ++ url ++ ": " ++ detail
  | .notJson url => "GitHub API returned invalid JSON for " ++ url
  | .crash cause => cause.message
  | .notListing => "GitHub API returned invalid pull-request files payload"
  | .noFilename => "GitHub API returned a file entry without a filename"

/-- The changed file of an entry; a patch that is no text counts as none. -/
def file (entry : Json.Value) : Except Error ChangedFile :=
  match entry with
  | .object _ =>
    let patch :=
      match entry.member? "patch" with
      | some (.string patch) => some patch
      | _ => none
    match entry.member? "filename" with
    | some (.string name) => if name.isEmpty then .error .noFilename else .ok ⟨name, patch⟩
    | _ => .error .noFilename
  | _ => .error .notListing

/-- The changed files of some entries. -/
def filesOf : List Json.Value → Except Error (List ChangedFile)
  | [] => .ok []
  | entry :: rest => do
    let first ← file entry
    let others ← filesOf rest
    return first :: others

/-- The changed files of a listing. -/
def files (listing : Json.Value) : Except Error (List ChangedFile) :=
  match listing with
  | .array entries => filesOf entries
  | _ => .error .notListing

/-- Whether a status says that the request was refused. -/
def isRefusal (status : Int) : Bool := decide (400 ≤ status) && decide (status < 600)

/-- The error for a body that is not taken as JSON. -/
def Error.ofJson (url : String) (error : Json.Error) : Error :=
  match error.fault with
  | .crash cause => .crash cause
  | _ => .notJson url

/-- The changed files that a response to a request for `url` lists. -/
def filesFrom (url : String) (response : Response) (limits : Json.Limits := {}) :
    Except Error (List ChangedFile) :=
  match response with
  | .failed reason => .error (.failed url reason)
  | .answered status body =>
    let cs := Text.Utf8.decodeLossyChars body
    if isRefusal status then
      .error (.refused url status (String.ofList ((Text.stripChars cs).take 400)))
    else
      match Json.parse cs limits with
      | .error error => .error (.ofJson url error)
      | .ok listing => files listing

/-- The message before a request. -/
def fetching (pull : PullRequest) : LogEntry :=
  ⟨.info, .remote, "Fetching files for " ++ pull.label⟩

/-- The message after a listing. -/
def received (pull : PullRequest) (count : Nat) : LogEntry :=
  ⟨.debug, .remote, "Received " ++ Text.natural count ++ " files for " ++ pull.label⟩

/-- The changed files of a pull request and the messages about asking for them, given what comes
back. -/
def list (asked : Request) (pull : PullRequest) (response : Response)
    (limits : Json.Limits := {}) : Except Error (List ChangedFile) × List LogEntry :=
  match filesFrom asked.url response limits with
  | .ok files => (.ok files, [fetching pull, received pull files.length])
  | .error error => (.error error, [fetching pull])

end LineLint.Remote
