/-
**Looking up paths in a tree.**

A path is followed step by step, from the working directory or, if it is absolute, from the root of
all files.  A link on the way is replaced by its target.  To find what is there at most forty links
are followed.

Resolving a path finds the location that it stands for, whether something is there or not, and has
no such bound.  A link that is met while its own target is being followed cannot be resolved: from
there on all names stay as they are written.

Main definitions:

* `LineLint.Tree.Found` — what a path leads to;
* `LineLint.Tree.descend`, `LineLint.Tree.follow` — following steps from a location, up to the first
  link and through links;
* `LineLint.Tree.lookup` — what a path leads to;
* `LineLint.Tree.links` — where the links of a tree are;
* `LineLint.Tree.Spot` — a location on the way of resolving;
* `LineLint.Tree.Settled`, `LineLint.Tree.resolve` — the location that a path stands for.
-/

import LineLint.Path
import LineLint.Tree.Basic

set_option relaxedAutoImplicit false
set_option autoImplicit false

namespace LineLint

/-- Where a path begins, given the working directory. -/
def Path.start (path : Path) (directory : Location) : Location :=
  if path.isAbsolute then [] else directory

namespace Tree

/-- What a path leads to. -/
inductive Found where
  /-- A file, directory or pipe at a location. -/
  | present (location : Location) (tree : Tree)
  /-- Nothing at a location, but the directory for it is there. -/
  | vacant (location : Location)
  /-- Nothing, and no directory for it either. -/
  | absent
  /-- Something on the way would have to be a directory, and is not. -/
  | notDirectory
  /-- A name on the way is longer than names can be. -/
  | nameTooLong
  /-- There are too many links on the way. -/
  | tooManyLinks

/-- The number of links that are followed. -/
def linkLimit : Nat := 40

/-- Whether a name has more than 255 bytes. -/
def isTooLong (name : String) : Bool := decide (255 < name.utf8ByteSize)

/-! ### The targets of links -/

/-- Whether a target begins at the root of all files. -/
def isRooted (target : String) : Bool := target.toList.head? == some '/'

/-- The steps of a target.  Those that are empty or a dot lead nowhere else, but they can only be
taken from a directory. -/
def steps (target : String) : List String := (Text.splitAt '/' target.toList).map String.ofList

/-- Whether a step leads nowhere else. -/
def stays (step : String) : Bool := step == "" || step == "."

/-- Where a target begins, given the location of the directory that the link is in. -/
def startOf (location : Location) (target : String) : Location :=
  if isRooted target then [] else location

/-! ### What a path leads to -/

/-- Follows steps from a location up to the first link, which `onward` goes on from: it is given the
location at which the target begins, and the steps of the target before those that are left. -/
def descend (root : Tree) (onward : Location → List String → Found) :
    Location → List String → Found
  | location, [] =>
    match root.at? location with
    | none => .absent
    | some tree => .present location tree
  | location, name :: rest =>
    match root.at? location with
    | none => .absent
    | some tree =>
      if !tree.isDirectory then .notDirectory
      else if stays name then descend root onward location rest
      else if name = ".." then descend root onward location.dropLast rest
      else if isTooLong name then .nameTooLong
      else
        match tree.entry? name with
        | none => if rest.isEmpty then .vacant (location ++ [name]) else .absent
        | some (.link target) => onward (startOf location target) (steps target ++ rest)
        | some _ => descend root onward (location ++ [name]) rest

/-- Follows steps from a location, through at most so many links. -/
def follow (root : Tree) : Nat → Location → List String → Found
  | 0 => descend root (fun _ _ => .tooManyLinks)
  | links + 1 => descend root (follow root links)

/-- Whether the text of a path holds the character that ends all names. -/
def holdsNull (path : Path) : Bool := path.text.toList.contains (Char.ofNat 0)

/-- What a path leads to, given the working directory. -/
def lookup (root : Tree) (directory : Location) (path : Path) : Found :=
  if holdsNull path then .absent
  else if 4096 ≤ path.text.utf8ByteSize then .nameTooLong
  else follow root linkLimit (path.start directory) path.parts

mutual

/-- The locations of all links of a tree. -/
def links (location : Location) : Tree → List Location
  | .file _ => []
  | .directory entries => entriesLinks location entries
  | .link _ => [location]
  | .pipe => []
termination_by structural tree => tree

/-- The locations of all links of some entries. -/
def entriesLinks (location : Location) : List (String × Tree) → List Location
  | [] => []
  | entry :: rest => entryLinks location entry ++ entriesLinks location rest
termination_by structural entries => entries

/-- The locations of all links of an entry. -/
def entryLinks (location : Location) : String × Tree → List Location
  | (name, tree) => links (location ++ [name]) tree
termination_by structural entry => entry

end

/-! ### The location that a path stands for -/

/-- The location that steps name from another one if no link is followed. -/
def asWritten : Location → List String → Location
  | location, [] => location
  | location, name :: rest =>
    if stays name then asWritten location rest
    else if name = ".." then asWritten location.dropLast rest
    else asWritten (location ++ [name]) rest

/-- The location that the steps left in a text name from another one if no link is followed.  What
begins with a slash is absolute, also where it is only left over from two slashes in a row. -/
def remainder (location : Location) : List String → Location
  | "" :: next :: rest => asWritten [] (next :: rest)
  | rest => asWritten location rest

/-- A location on the way, and whether the way began at the root of all files. -/
structure Spot where
  location : Location
  rooted : Bool
  deriving DecidableEq, Repr

namespace Spot

/-- The spot one name further. -/
def child (spot : Spot) (name : String) : Spot :=
  { spot with location := spot.location ++ [name] }

/-- The spot one name back. -/
def parent (spot : Spot) : Spot := { spot with location := spot.location.dropLast }

/-- The spot at which the target of a link begins, given that of the directory the link is in. -/
def begin (spot : Spot) (target : String) : Spot :=
  ⟨startOf spot.location target, spot.rooted || isRooted target⟩

end Spot

/-- What resolving comes to. -/
inductive Settled where
  /-- All links have been followed. -/
  | reached (spot : Spot)
  /-- The names are as they are written, from a link on that could not be resolved. -/
  | looped (location : Location)
  deriving DecidableEq, Repr

/-- The location that resolving comes to. -/
def Settled.location : Settled → Location
  | .reached spot => spot.location
  | .looped location => location

/-- Resolves steps from a spot.  A link stands for what `inner` makes of its target, unless it is
busy: unless it was met before on a way that began at the same place, and its target is being
followed.  What does not exist is taken as it is written. -/
def settle (root : Tree) (inner : List Spot → Spot → List String → Settled) (busy : List Spot) :
    Spot → List String → Settled
  | spot, [] => .reached spot
  | spot, name :: rest =>
    if stays name then settle root inner busy spot rest
    else if name = ".." then settle root inner busy spot.parent rest
    else
      match root.at? (spot.child name).location with
      | some (.link target) =>
        if spot.child name ∈ busy then .looped (remainder (spot.child name).location rest)
        else
          match inner (spot.child name :: busy) (spot.begin target) (steps target) with
          | .reached place => settle root inner busy place rest
          | .looped place => .looped (remainder place rest)
      | _ => settle root inner busy (spot.child name) rest

/-- Resolves steps from a spot, if less than `depth` targets of links are looked at one in the
other. -/
def resolveFrom (root : Tree) : Nat → List Spot → Spot → List String → Settled
  | 0 => fun _ spot _ => .looped spot.location
  | depth + 1 => settle root (resolveFrom root depth)

/-- The location that a path stands for, given the working directory.  No link is busy more than
twice, so the number of links bounds the depth. -/
def resolve (root : Tree) (directory : Location) (path : Path) : Settled :=
  resolveFrom root (2 * (root.links []).length + 1) [] ⟨path.start directory, path.isAbsolute⟩
    path.parts

end Tree

end LineLint
