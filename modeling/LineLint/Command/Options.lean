/-
**Reading options and arguments.**

An option is given by a long name with two hyphens or a short name with one.  The value of an option
follows it, or is attached: after an equals sign to a long name, directly to a short one.  Short
options without values can share one hyphen.  Two hyphens alone end the options.

Main definitions:

* `LineLint.Command.OptionSpec` — an option;
* `LineLint.Command.Given` — the options and arguments that were given;
* `LineLint.Command.readOption` — the options of one argument;
* `LineLint.Command.readArguments` — all options and arguments.
-/

import LineLint.Text.Split

set_option relaxedAutoImplicit false
set_option autoImplicit false

namespace LineLint.Command

/-- An option with its names, which begin with their hyphens. -/
structure OptionSpec (κ : Type) where
  key : κ
  long : String
  short : Option Char := none
  takesValue : Bool := true

/-- The options that were given, in order and with their values, and the arguments. -/
structure Given (κ : Type) where
  options : List (κ × String) := []
  arguments : List String := []

namespace Given

variable {κ : Type} [DecidableEq κ]

/-- The values of an option. -/
def values (given : Given κ) (key : κ) : List String :=
  (given.options.filter (fun option => option.1 = key)).map Prod.snd

/-- The last value of an option. -/
def last? (given : Given κ) (key : κ) : Option String := (given.values key).getLast?

/-- Whether an option was given. -/
def has (given : Given κ) (key : κ) : Bool := given.options.any (fun option => option.1 = key)

end Given

variable {κ : Type}

/-- What one argument gives: options with their values, and an option that still needs one. -/
structure OptionPart (κ : Type) where
  complete : List (κ × String)
  awaiting : Option κ := none

/-- Reads short options after their hyphen. -/
def readShort (specs : List (OptionSpec κ)) : List Char → Option (OptionPart κ)
  | [] => some ⟨[], none⟩
  | c :: rest =>
    match specs.find? (fun spec => spec.short == some c) with
    | none => none
    | some spec =>
      if spec.takesValue then
        if rest.isEmpty then some ⟨[], some spec.key⟩
        else some ⟨[(spec.key, String.ofList rest)], none⟩
      else
        match readShort specs rest with
        | none => none
        | some part => some { part with complete := (spec.key, "") :: part.complete }

/-- Reads a long option: its name and, after an equals sign, a value. -/
def readLong (specs : List (OptionSpec κ)) (cs : List Char) : Option (OptionPart κ) :=
  let name := cs.takeWhile (· != '=')
  let value? := if name.length < cs.length then some (cs.drop (name.length + 1)) else none
  match specs.find? (fun spec => spec.long.toList == name) with
  | none => none
  | some spec =>
    match spec.takesValue, value? with
    | true, some value => some ⟨[(spec.key, String.ofList value)], none⟩
    | true, none => some ⟨[], some spec.key⟩
    | false, none => some ⟨[(spec.key, "")], none⟩
    | false, some _ => none

/-- Reads an argument that begins with a hyphen and has more than that. -/
def readOption (specs : List (OptionSpec κ)) (argument : String) : Option (OptionPart κ) :=
  match argument.toList with
  | '-' :: '-' :: rest => readLong specs ('-' :: '-' :: rest)
  | '-' :: rest => readShort specs rest
  | _ => none

/-- Whether an argument is an option. -/
def isOption (argument : String) : Bool :=
  match argument.toList with
  | '-' :: _ :: _ => true
  | _ => false

/-- Reads options and arguments, in addition to those given so far.  Unless they are `mixed`,
everything from the first argument on is an argument. -/
def readArguments (specs : List (OptionSpec κ)) (mixed : Bool) (given : Given κ) :
    List String → Option (Given κ)
  | [] => some given
  | argument :: rest =>
    if argument = "--" then
      some { given with arguments := given.arguments ++ rest }
    else if isOption argument then
      match readOption specs argument with
      | none => none
      | some ⟨complete, none⟩ =>
        readArguments specs mixed { given with options := given.options ++ complete } rest
      | some ⟨complete, some key⟩ =>
        match rest with
        | [] => none
        | value :: others =>
          readArguments specs mixed
            { given with options := given.options ++ complete ++ [(key, value)] } others
    else if mixed then
      readArguments specs mixed { given with arguments := given.arguments ++ [argument] } rest
    else
      some { given with arguments := given.arguments ++ argument :: rest }

end LineLint.Command
