/-
**The program.**

The files below the working directory, and below the places that the arguments name, are taken as
they are when the program starts; a command runs on them, and then what it printed is shown and the
files it changed are put in place.  The program opens no connection, so a command that asks the
hosting service is told that the request failed.

Main definitions:

* `LineLint.Program.snapshot` — the files below a place, and what could not be read of them;
* `LineLint.Program.world` — what a command sees;
* `LineLint.Program.settle` — shows what a command printed and writes what it changed;
* `main` — runs a command.
-/

import LineLint.Command.Run

set_option relaxedAutoImplicit false
set_option autoImplicit false

namespace LineLint.Program

/-- What was found at a place: a tree, the paths at which something could not be looked at, listed
or read, and the places that links lead to. -/
structure Snapshot where
  tree : Tree
  faults : Faults := {}
  linked : List Location := []

/-- The faults of both. -/
def bothFaults (first second : Faults) : Faults :=
  { read := first.read ++ second.read
    list := first.list ++ second.list
    stat := first.stat ++ second.stat }

/-- The location of the place with the given text. -/
def locationOf (place : String) : Location := Path.components place.toList

/-- The paths of a location, seen from the working directory and from the root of all files. -/
def pathsOf (directory location : Location) : List String :=
  if directory.isPrefixOf location then
    [(Path.mk "" (location.drop directory.length)).text, Tree.locationText location]
  else
    [Tree.locationText location]

/-- A location as an entry of the root of all files. -/
def entryOf (location : Location) : IO.FS.DirEntry :=
  { root := "/", fileName := Text.join "/" location }

/-- The files below a location. -/
partial def snapshot (directory location : Location) : IO Snapshot := do
  let path := (entryOf location).path
  let paths := pathsOf directory location
  match ← path.symlinkMetadata.toBaseIO with
  | .error _ => return { tree := .pipe, faults := { stat := paths } }
  | .ok info =>
    match info.type with
    | .other => return { tree := .pipe }
    | .file =>
      match ← (IO.FS.readBinFile path).toBaseIO with
      | .ok content => return { tree := .file content.toList }
      | .error _ => return { tree := .file [], faults := { read := paths } }
    | .symlink =>
      -- a link that leads nowhere is shown as a link to itself
      match ← (IO.FS.realPath path).toBaseIO with
      | .ok place =>
        return { tree := .link place.toString, linked := [locationOf place.toString] }
      | .error _ => return { tree := .link (location.getLast?.getD ".") }
    | .dir =>
      match ← path.readDir.toBaseIO with
      | .error _ => return { tree := .directory [], faults := { list := paths } }
      | .ok entries =>
        let mut found : List (String × Tree) := []
        let mut faults : Faults := {}
        let mut linked : List Location := []
        for entry in entries do
          let part ← snapshot directory (location ++ [entry.fileName])
          found := (entry.fileName, part.tree) :: found
          faults := bothFaults faults part.faults
          linked := part.linked ++ linked
        return { tree := .directory found, faults := faults, linked := linked }

/-- The tree with a snapshot of a place in it, unless the place is in the tree already. -/
def withPlace (directory : Location) (seen : Snapshot) (place : Location) : IO Snapshot := do
  if (seen.tree.at? place).isSome then
    return seen
  else
    let part ← snapshot directory place
    return {
      tree := Tree.put part.tree place seen.tree
      faults := bothFaults seen.faults part.faults
      linked := part.linked ++ seen.linked }

/-- The places that arguments name. -/
def named (arguments : List String) : IO (List Location) := do
  let mut places : List Location := []
  for argument in arguments do
    if let .ok place ← (IO.FS.realPath argument).toBaseIO then
      places := locationOf place.toString :: places
  return places

/-- The variables that the settings are read from, as far as they are set. -/
def environment : IO Environment := do
  let mut found : Environment := []
  for name in [tokenVariable, apiUrlVariable, disableVariable, levelVariable] do
    if let some value ← IO.getEnv name then
      found := (name, value) :: found
  return found

/-- How much of a body is read.  How deeply arrays and objects can be nested depends on the calls
around the reader; this is about what is left of a thousand. -/
def limits : Json.Limits := ⟨some Text.digitLimit, some 970⟩

/-- The help of the program, or of a command: the words that can be given. -/
def help : Option Command.Name → String
  | none =>
    "Options: " ++ Text.join ", " (Command.rootOptions.map Command.OptionSpec.long) ++
      "\nCommands: lint, complexity, pr, rules"
  | some name => "Options: " ++ Text.join ", " ((Command.options name).map Command.OptionSpec.long)

/-- What a command with the given arguments sees when the program starts.  Of the places outside
that links lead to only files are taken. -/
def world (arguments : List String) : IO Command.World := do
  let directory := locationOf (← IO.FS.realPath ".").toString
  let mut seen : Snapshot := { tree := .directory [] }
  for place in directory :: (← named arguments) do
    seen ← withPlace directory seen place
  for place in seen.linked do
    if !(← (entryOf place).path.isDir) then
      seen ← withPlace directory seen place
  return {
    tree := seen.tree
    directory := directory
    environment := ← environment
    faults := seen.faults
    response := .failed "no connection"
    limits := limits
    help := help }

/-- What is shown of a failure that ends the run. -/
def traceback (cause : Crash) : String := cause.message ++ "\n"

/-- Shows what a command printed and writes the files that it changed. -/
def settle (seen : Command.World) (outcome : Command.Outcome) : IO Unit := do
  IO.print outcome.stdout
  IO.eprint (outcome.stderr traceback)
  for (location, content) in outcome.written seen.tree do
    IO.FS.createDirAll (Tree.locationText location.dropLast)
    IO.FS.writeBinFile (Tree.locationText location) ⟨content.toArray⟩

end LineLint.Program

/-- Runs a command with the arguments of the program, and gives its exit code. -/
def main (arguments : List String) : IO UInt32 := do
  let seen ← LineLint.Program.world arguments
  let outcome := LineLint.Command.run seen arguments
  LineLint.Program.settle seen outcome
  return outcome.exitCode.toUInt32
