/-
**Changed files of a pull request.**

Main definitions:

* `LineLint.ChangedFile` — a changed file with its patch, if it has one;
* `LineLint.ChangedFile.events` — the texts of the patches.
-/

import LineLint.Source

set_option relaxedAutoImplicit false
set_option autoImplicit false

namespace LineLint

/-- A changed file of a pull request. -/
structure ChangedFile where
  filename : String
  patch : Option String := none
  deriving DecidableEq, Repr

namespace ChangedFile

/-- The text of the patch of a file, or a message that there is none.  The patch is taken as it is,
with its headers and the marks in front of its lines. -/
def event (file : ChangedFile) : Event :=
  match file.patch with
  | none | some "" =>
    .note ⟨.debug, .patches, "No patch for " ++ file.filename ++ ", skipping"⟩
  | some patch => .found ⟨file.filename, patch⟩

/-- The texts of the patches of some files, and the messages for files without one. -/
def events (files : List ChangedFile) : List Event := files.map event

end ChangedFile

end LineLint
