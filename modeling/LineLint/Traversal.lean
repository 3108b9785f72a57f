/-
**Finding the texts to lint in a tree.**

A path that leads to a file gives its text.  A directory is walked if that is asked for: its entries
in the order of their names, directories among them in turn, but never a directory behind a link.
Whatever cannot be looked at, listed or read is passed over with a message, and the rest goes on.

Main definitions:

* `LineLint.Faults` — the paths at which looking, listing or reading fails;
* `LineLint.Traversal` — the tree, the working directory, the excluded names and the faults of a
  run;
* `LineLint.Traversal.walk` — the texts below a directory;
* `LineLint.Traversal.fromPath`, `LineLint.Traversal.fromPaths` — the texts of paths.
-/

import LineLint.Glob
import LineLint.Source
import LineLint.Text.Order
import LineLint.Text.Quoted
import LineLint.Text.Utf8
import LineLint.Tree.Lookup

set_option relaxedAutoImplicit false
set_option autoImplicit false

namespace LineLint

/-- The paths at which an operation fails for want of permission. -/
structure Faults where
  read : List String := []
  list : List String := []
  stat : List String := []
  deriving Repr

/-- What a traversal depends on. -/
structure Traversal where
  tree : Tree
  /-- The working directory. -/
  directory : Location
  excluded : List String := []
  faults : Faults := {}

namespace Traversal

/-- The reason for a failure for want of permission. -/
def denied (path : Path) : String :=
  "[Errno 13] Permission denied: " ++ Text.quoted path.text

/-- The reason for a failure because a name is too long. -/
def nameTooLong (path : Path) : String :=
  "[Errno 36] File name too long: " ++ Text.quoted path.text

/-- A message of the traversal. -/
def note (level : Level) (message : String) : Event := .note ⟨level, .traversal, message⟩

/-- The message that a path is passed over for a reason. -/
def skipping (path : Path) (reason : String) : Event :=
  note .warning ("Skipping " ++ path.text ++ ": " ++ reason)

/-- The message that a path is excluded. -/
def excludedNote (path : Path) : Event := note .debug ("Excluded " ++ path.text)

/-- The text of a file at a path. -/
def readFile (t : Traversal) (path : Path) (content : List UInt8) : Event :=
  if t.faults.read.contains path.text then skipping path (denied path)
  else .found ⟨path.text, Text.Utf8.decodeLossy content⟩

mutual

/-- The texts below a directory that is shown as a path. -/
def walk (t : Traversal) (path : Path) : Tree → List Event
  | .directory entries =>
    if t.faults.list.contains path.text then
      [note .warning ("Skipping directory " ++ path.text ++ ": " ++ denied path)]
    else
      (Text.inOrder Prod.fst (walkEntries t path entries)).flatMap Prod.snd
  | _ => []
termination_by structural tree => tree

/-- The texts of the entries of a directory, with their names. -/
def walkEntries (t : Traversal) (path : Path) : List (String × Tree) → List (String × List Event)
  | [] => []
  | entry :: rest => walkEntry t path entry :: walkEntries t path rest
termination_by structural entries => entries

/-- The texts of an entry of a directory, with its name.  What the entry is depends on the whole
path to it; directories behind links are not walked. -/
def walkEntry (t : Traversal) (path : Path) : String × Tree → String × List Event
  | (name, tree) =>
    let child := path.child name
    if Glob.excludes t.excluded child then
      (name, [excludedNote child])
    else if t.faults.stat.contains child.text then
      (name, [skipping child (denied child)])
    else
      match t.tree.lookup t.directory child with
      | .present _ (.directory _) =>
        match tree with
        | .link _ => (name, [note .debug ("Not following symlinked directory " ++ child.text)])
        | _ => (name, walk t child tree)
      | .present _ (.file content) => (name, [t.readFile child content])
      | .nameTooLong => (name, [skipping child (nameTooLong child)])
      | _ => (name, [])
termination_by structural entry => entry

end

/-- The texts of what a path leads to. -/
def fromFound (t : Traversal) (recursive : Bool) (path : Path) (found : Tree.Found) :
    List Event :=
  match found with
  | .present _ (.file content) => [t.readFile path content]
  | .present _ (.directory entries) =>
    if recursive then
      t.walk path (.directory entries)
    else
      [note .info ("Skipping directory " ++ path.text ++ " (use --recursive to lint it)")]
  | .nameTooLong => [skipping path (nameTooLong path)]
  | _ => [skipping path "no such file or directory"]

/-- The texts of a path. -/
def fromPath (t : Traversal) (recursive : Bool) (path : Path) : List Event :=
  if Glob.excludes t.excluded path then
    [excludedNote path]
  else if t.faults.stat.contains path.text then
    [skipping path (denied path)]
  else
    t.fromFound recursive path (t.tree.lookup t.directory path)

/-- The texts of some paths, one after the other. -/
def fromPaths (t : Traversal) (recursive : Bool) (paths : List Path) : List Event :=
  paths.flatMap (t.fromPath recursive)

end Traversal

end LineLint
