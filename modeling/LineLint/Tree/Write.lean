/-
**Writing a file into a tree.**

The path is resolved first; the directory of the file is made if it is missing, together with
those above it.  When the file cannot be written, directories that were made before stay, but no
file changes.

If a link on the way could not be resolved, then there may be other links among the names behind
it.  These are followed when the file is opened, so the file can be at another location than the
one with these names.

Main definitions:

* `LineLint.Tree.WriteError` — why a file cannot be written;
* `LineLint.Tree.WriteFailure` — the reason, and the tree as it was left;
* `LineLint.Tree.checkParent` — whether the directory of a file is there or can be made;
* `LineLint.Tree.writeAt` — the tree with the file in it, given its location;
* `LineLint.Tree.target` — the location of the file with given names;
* `LineLint.Tree.write` — the tree with the file in it, given its path.
-/

import LineLint.Crash
import LineLint.Tree.Lookup

set_option relaxedAutoImplicit false
set_option autoImplicit false

namespace LineLint.Tree

/-- Why a file cannot be written.  The text is that of the path at fault. -/
inductive WriteError where
  /-- There is a directory at the path. -/
  | isDirectory (path : String)
  /-- The directory of the file is something else. -/
  | fileExists (path : String)
  /-- The directory of the file would be below something else than a directory. -/
  | notDirectory (path : String)
  /-- A name or a whole path is longer than it can be. -/
  | nameTooLong (path : String)
  /-- The path is that of a link that leads nowhere. -/
  | missing (path : String)
  /-- There is a pipe at the path, and the wait for a reader of it has no end. -/
  | noReader (path : String)
  /-- The whole run ends. -/
  | crash (cause : Crash)
  deriving DecidableEq, Repr

/-- The message when a file cannot be written. -/
def WriteError.message : WriteError → String
  | .isDirectory path => "[Errno 21] Is a directory: " ++ Text.quoted path
  | .fileExists path => "[Errno 17] File exists: " ++ Text.quoted path
  | .notDirectory path => "[Errno 20] Not a directory: " ++ Text.quoted path
  | .nameTooLong path => "[Errno 36] File name too long: " ++ Text.quoted path
  | .missing path => "[Errno 2] No such file or directory: " ++ Text.quoted path
  | .noReader path => "no reader: " ++ Text.quoted path
  | .crash cause => cause.message

/-- A write that failed: the reason, and the tree with the directories that were made before. -/
structure WriteFailure where
  error : WriteError
  tree : Tree

/-! ### Writing at a location -/

/-- All locations on the way to a location, the root first and the location itself last. -/
def waypoints (location : Location) : List Location :=
  (List.range (location.length + 1)).map location.take

/-- The first location on the way at which there is nothing. -/
def firstMissing? (tree : Tree) (location : Location) : Option Location :=
  (waypoints location).find? (fun place => (tree.at? place).isNone)

/-- The first directory on the way, from the first missing one on, whose name is too long. -/
def longDirectory? (location missing : Location) : Option Location :=
  ((waypoints location).filter (fun place => decide (missing.length ≤ place.length))).find?
    (fun place => (place.getLast?).any isTooLong)

/-- Whether a path has 4096 bytes or more. -/
def isTooFar (path : String) : Bool := decide (4096 ≤ path.utf8ByteSize)

/-- The tree with a directory at a location, made with those above it if nothing is there. -/
def makeDirectory (location : Location) (tree : Tree) : Tree :=
  if (tree.at? location).isSome then tree else put (.directory []) location tree

/-- Whether a directory is there or can be made; `shown` gives the paths of the locations on the
way.  Those above one whose name is too long are made nonetheless; but if already the first missing
one has such a name, it is the whole way that is at fault. -/
def checkParent (tree : Tree) (shown : Location → String) (location : Location) :
    Except WriteFailure Unit :=
  if isTooFar (shown location) then
    .error ⟨.nameTooLong (shown location), tree⟩
  else
    match tree.at? location with
    | some found =>
      if found.isDirectory then .ok () else .error ⟨.fileExists (shown location), tree⟩
    | none =>
      match firstMissing? tree location with
      | none => .ok ()
      | some missing =>
        if ((tree.at? missing.dropLast).any isDirectory) then
          match longDirectory? location missing with
          | some long =>
            let fault := if long = missing then location else long
            .error ⟨.nameTooLong (shown fault), makeDirectory long.dropLast tree⟩
          | none => .ok ()
        else
          .error ⟨.notDirectory (shown location), tree⟩

/-- Writes a file at a location; `shown` gives the paths of the locations on the way. -/
def writeAt (tree : Tree) (shown : Location → String) (location : Location)
    (content : List UInt8) : Except WriteFailure Tree :=
  match location.getLast? with
  | none => .error ⟨.isDirectory (shown location), tree⟩
  | some name =>
    match checkParent tree shown location.dropLast with
    | .error failure => .error failure
    | .ok () =>
      if isTooLong name || isTooFar (shown location) then
        .error ⟨.nameTooLong (shown location), makeDirectory location.dropLast tree⟩
      else
        match tree.at? location with
        | some (.directory _) => .error ⟨.isDirectory (shown location), tree⟩
        | some .pipe => .error ⟨.noReader (shown location), tree⟩
        | _ => .ok (put (.file content) location tree)

/-! ### Names that may be those of links -/

/-- How far names lead from a location: a location, and the names from the first one on that is that
of a link that leads nowhere. -/
def reach (tree : Tree) : Location → List String → Location × List String
  | here, [] => (here, [])
  | here, name :: rest =>
    match tree.at? (here ++ [name]) with
    | some (.link _) =>
      match follow tree linkLimit here [name] with
      | .present place _ => reach tree place rest
      | _ => (here, name :: rest)
    | _ => reach tree (here ++ [name]) rest

/-- Why a file with the given names cannot be written if the first of the names that are left is
that of a link that leads nowhere. -/
def deadEnd (names : Location) (left : List String) (found : Found) : WriteError :=
  let path := locationText names
  let parent := locationText names.dropLast
  if isTooFar parent then .nameTooLong parent
  else if left.length ≤ 1 then
    match found with
    | .notDirectory => .notDirectory path
    | .nameTooLong => .nameTooLong path
    | _ => .missing path
  else
    match found with
    | .notDirectory => if left.length = 2 then .fileExists parent else .notDirectory parent
    | .nameTooLong => .nameTooLong parent
    | _ => .fileExists (locationText (names.take (names.length + 1 - left.length)))

/-- The location of the file with given names.  A link at their end may lead to nothing, if the
directory for it is there: the file is made at that location then. -/
def target (tree : Tree) (names : Location) : Except WriteError Location :=
  match reach tree [] names with
  | (location, []) => .ok location
  | (here, name :: rest) =>
    match rest, follow tree linkLimit here [name] with
    | [], .vacant location => .ok location
    | _, found => .error (deadEnd names (name :: rest) found)

/-- The path of a location on the way to another one, or of that itself, if the names of that are
`names`. -/
def shownAs (names location place : Location) : String :=
  locationText (names.take (names.length + place.length - location.length))

/-- Whether names lead through too many links. -/
def leadsRound (tree : Tree) (names : Location) : Bool :=
  match follow tree linkLimit [] names with
  | .tooManyLinks => !isTooFar (locationText names)
  | _ => false

/-! ### Writing at a path -/

/-- A file that was written: its path as it is shown, its location, and the tree with it. -/
structure Written where
  path : String
  location : Location
  tree : Tree

/-- Writes a file that has the given names, and is at a location. -/
def writeNamed (tree : Tree) (names : Location) (shown : Location → String) (location : Location)
    (content : List UInt8) : Except WriteFailure Written :=
  match tree.writeAt shown location content with
  | .error failure => .error failure
  | .ok after => .ok ⟨locationText names, location, after⟩

/-- Writes a file at a path, given the working directory. -/
def write (tree : Tree) (directory : Location) (path : Path) (content : List UInt8) :
    Except WriteFailure Written :=
  if holdsNull path then
    .error ⟨.crash .nullInPath, tree⟩
  else
    match tree.resolve directory path with
    | .reached spot => tree.writeNamed spot.location locationText spot.location content
    | .looped names =>
      if tree.leadsRound names then
        .error ⟨.crash (.linkLoop (locationText names)), tree⟩
      else
        match tree.target names with
        | .error error => .error ⟨error, tree⟩
        | .ok location => tree.writeNamed names (shownAs names location) location content

end LineLint.Tree
