/-
**Trees of files.**

A tree holds regular files, directories, symbolic links and named pipes; its root is the root of all
files.  The entries of a directory come in whatever order the tree was made in; a location is the
list of names on the way from the root of the tree, and goes through no link.

Main definitions:

* `LineLint.Tree` — a tree;
* `LineLint.Tree.entry?`, `LineLint.Tree.at?` — what is at a name or at a location;
* `LineLint.Tree.put` — a tree with something at a location, the directories to it made if missing;
* `LineLint.Tree.locationText` — a location as it is shown;
* `LineLint.Tree.files`, `LineLint.Tree.changes` — all files of a tree, and those that differ from
  an earlier tree.

Main results:

* `LineLint.Tree.at?_append` — a location is followed name by name.
-/

import LineLint.Text.Split

set_option relaxedAutoImplicit false
set_option autoImplicit false

namespace LineLint

/-- A tree of files. -/
inductive Tree where
  /-- A regular file. -/
  | file (content : List UInt8)
  | directory (entries : List (String × Tree))
  /-- A symbolic link; its target is read in the directory it is in. -/
  | link (target : String)
  /-- A named pipe. -/
  | pipe

/-- The names on the way from the root of a tree. -/
abbrev Location := List String

namespace Tree

/-- The entry of a directory with a given name. -/
def entry? (tree : Tree) (name : String) : Option Tree :=
  match tree with
  | .directory entries => entries.lookup name
  | _ => none

/-- What is at a location. -/
def at? (tree : Tree) : Location → Option Tree
  | [] => some tree
  | name :: rest =>
    match tree.entry? name with
    | some inner => inner.at? rest
    | none => none

@[simp] theorem at?_nil (tree : Tree) : tree.at? [] = some tree := by
  unfold at?
  rfl

theorem at?_cons (tree : Tree) (name : String) (rest : Location) :
    tree.at? (name :: rest) = (tree.entry? name).bind (fun inner => inner.at? rest) := by
  rw [at?]
  cases tree.entry? name <;> rfl

theorem at?_append (tree : Tree) (first second : Location) :
    tree.at? (first ++ second) = (tree.at? first).bind (fun inner => inner.at? second) := by
  induction first generalizing tree with
  | nil => simp
  | cons name rest ih =>
    rw [List.cons_append, at?_cons, at?_cons]
    cases tree.entry? name with
    | none => rfl
    | some inner => exact ih inner

/-- Whether the tree is a directory. -/
def isDirectory : Tree → Bool
  | .directory _ => true
  | _ => false

/-- The entries with the one of a given name changed, or added at the end. -/
def change (name : String) (f : Option Tree → Tree) : List (String × Tree) → List (String × Tree)
  | [] => [(name, f none)]
  | entry :: rest =>
    if entry.1 = name then (name, f (some entry.2)) :: rest else entry :: change name f rest

/-- The tree with `new` at a location.  Missing directories on the way are made; a way through
anything else leaves the tree as it is. -/
def put (new : Tree) : Location → Tree → Tree
  | [], _ => new
  | name :: rest, .directory entries =>
    .directory (change name (fun old => put new rest (old.getD (.directory []))) entries)
  | _ :: _, other => other

/-- The text of a location. -/
def locationText (location : Location) : String := "/" ++ Text.join "/" location

mutual

/-- All regular files of a tree with their locations. -/
def files (location : Location) : Tree → List (Location × List UInt8)
  | .file content => [(location, content)]
  | .directory entries => entriesFiles location entries
  | .link _ => []
  | .pipe => []
termination_by structural tree => tree

/-- All regular files of some entries with their locations. -/
def entriesFiles (location : Location) : List (String × Tree) → List (Location × List UInt8)
  | [] => []
  | entry :: rest => entryFiles location entry ++ entriesFiles location rest
termination_by structural entries => entries

/-- All regular files of an entry with their locations. -/
def entryFiles (location : Location) : String × Tree → List (Location × List UInt8)
  | (name, tree) => files (location ++ [name]) tree
termination_by structural entry => entry

end

/-- The files of `after` that `before` does not have, or has with another content. -/
def changes (before after : Tree) : List (Location × List UInt8) :=
  let old := before.files []
  (after.files []).filter (fun entry => old.lookup entry.1 != some entry.2)

end Tree

end LineLint
