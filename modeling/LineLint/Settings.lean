/-
**Settings from the environment.**

Main definitions:

* `LineLint.Environment` — the variables of the environment;
* `LineLint.Settings`, `LineLint.Settings.load` — the settings, and how they are read;
* `LineLint.Settings.items` — the items of a list with commas;
* `LineLint.Settings.requireToken` — the token, which only some commands need.
-/

import LineLint.Log
import LineLint.Text.Blank
import LineLint.Text.Case
import LineLint.Text.Quoted
import LineLint.Text.Split

set_option relaxedAutoImplicit false
set_option autoImplicit false

namespace LineLint

/-- The variables of the environment with their values. -/
abbrev Environment := List (String × String)

/-- The variable with the access token. -/
def tokenVariable : String := "GITHUB_TOKEN"

/-- The variable with the address of the hosting service. -/
def apiUrlVariable : String := "CODE_LINTER_GITHUB_API_URL"

/-- The variable with the rules that are turned off. -/
def disableVariable : String := "CODE_LINTER_DISABLE"

/-- The variable with the least level of messages that are shown. -/
def levelVariable : String := "CODE_LINTER_LOG_LEVEL"

/-- The address of the hosting service unless the environment gives another. -/
def defaultApiUrl : String := "https://api.github.com"

/-- Why there are no settings. -/
inductive SettingsError where
  /-- The address is no web address. -/
  | badApiUrl (url : String)
  /-- The level of messages has no known name. -/
  | badLevel
  /-- There is no token. -/
  | missingToken
  deriving DecidableEq, Repr

/-- The message when there are no settings. -/
def SettingsError.message : SettingsError → String
  | .badApiUrl url => apiUrlVariable ++ " must be an http(s) URL, got " ++ Text.quoted url
  | .badLevel =>
    levelVariable ++ " must be one of: critical, debug, error, info, warning"
  | .missingToken => tokenVariable ++ " required"

/-- The settings. -/
structure Settings where
  token : Option String
  apiUrl : String
  disabled : List String
  level : Level
  deriving DecidableEq, Repr

namespace Settings

/-- The value of a variable without the blanks around it, if anything is left. -/
def stripped (env : Environment) (key : String) : Option String :=
  match env.lookup key with
  | none => none
  | some value =>
    let text := Text.strip value
    if text.isEmpty then none else some text

/-- The items of a list with commas, without the blanks around them and without empty ones. -/
def items (raw : String) : List String :=
  ((Text.splitAt ',' raw.toList).map Text.stripChars).filterMap (fun item =>
    if item.isEmpty then none else some (String.ofList item))

/-- The level that the environment asks for. -/
def levelOf (env : Environment) : Option Level :=
  match env.lookup levelVariable with
  | none | some "" => some .warning
  | some value => Level.ofName? (Text.lower (Text.strip value))

/-- Reads the settings from the environment. -/
def load (env : Environment) : Except SettingsError Settings :=
  let apiUrl := (stripped env apiUrlVariable).getD defaultApiUrl
  if !("https://".isPrefixOf apiUrl || "http://".isPrefixOf apiUrl) then
    .error (.badApiUrl apiUrl)
  else
    match levelOf env with
    | none => .error .badLevel
    | some level =>
      .ok
        { token := stripped env tokenVariable
          apiUrl := apiUrl
          disabled := items ((env.lookup disableVariable).getD "")
          level := level }

/-- The token, if there is one. -/
def requireToken (settings : Settings) : Except SettingsError String :=
  match settings.token with
  | some token => .ok token
  | none => .error .missingToken

end Settings

end LineLint
