/-
**Paths.**

A path is read from a text: empty and `.` components vanish, `..` stays.  One slash in front makes
it absolute, and exactly two slashes are kept as two.

Main definitions:

* `LineLint.Path` — a path;
* `LineLint.Path.ofText`, `LineLint.Path.text` — reading and writing;
* `LineLint.Path.name`, `LineLint.Path.ending` — the last component, and its ending;
* `LineLint.Path.child` — a path one component further;
* `LineLint.Path.isAbsolute` — whether a path begins at the root of all files.
-/

import LineLint.Text.Split

set_option relaxedAutoImplicit false
set_option autoImplicit false

namespace LineLint

/-- A path: the slashes in front, and the components. -/
structure Path where
  root : String
  parts : List String
  deriving DecidableEq, Repr

namespace Path

/-- The components of some characters, without the empty ones and those that are a dot. -/
def components (cs : List Char) : List String :=
  ((Text.splitAt '/' cs).filter (fun part => part != [] && part != ['.'])).map String.ofList

/-- The slashes that a path with these characters keeps in front. -/
def rootOf (cs : List Char) : String :=
  match (cs.takeWhile (· == '/')).length with
  | 0 => ""
  | 2 => "//"
  | _ => "/"

/-- The path of a text. -/
def ofText (text : String) : Path := ⟨rootOf text.toList, components text.toList⟩

/-- The text of a path; the empty path is a dot. -/
def text (path : Path) : String :=
  if path.parts.isEmpty && path.root == "" then "." else path.root ++ Text.join "/" path.parts

/-- Whether a path begins at the root of all files. -/
def isAbsolute (path : Path) : Bool := path.root != ""

/-- The last component, or nothing. -/
def name (path : Path) : String := path.parts.getLast?.getD ""

/-- The path of an entry of the directory at this path. -/
def child (path : Path) (name : String) : Path := { path with parts := path.parts ++ [name] }

theorem child_inj {path path' : Path} {name name' : String}
    (h : path.child name = path'.child name') : path = path' ∧ name = name' := by
  obtain ⟨hroot, hparts⟩ := Path.mk.inj h
  obtain ⟨hparts, hname⟩ := List.append_inj' hparts rfl
  cases path
  cases path'
  cases hroot
  cases hparts
  cases hname
  exact ⟨rfl, rfl⟩

/-- The ending of a name: what follows its last dot, if something precedes that dot and something
follows it. -/
def endingOf (name : List Char) : Option (List Char) :=
  let after := (name.reverse.takeWhile (· != '.')).reverse
  let before := name.length - after.length - 1
  if after.length < name.length && !after.isEmpty && decide (0 < before) then some after else none

/-- The ending of the last component. -/
def ending (path : Path) : Option String := (endingOf path.name.toList).map String.ofList

end Path

end LineLint
