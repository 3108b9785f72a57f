/-
**The names on the way to a location.**

Resolving and following only ever add names of entries to the names of a location: a step that leads
nowhere else or back is taken at once, and no step has a slash in it.  So the location that a path
stands for is one that entries can have.

Main definitions:

* `LineLint.Tree.AreNames` — all are names of entries;
* `LineLint.Tree.StandsFor` — **a path stands for the file at a location**.

Main results:

* `LineLint.Tree.areNames_resolve`, `LineLint.Tree.areNames_target` — what is found is made of
  names;
* `LineLint.Tree.StandsFor.unique` — a path stands for one file at most;
* `LineLint.Tree.StandsFor.areNames` — **the location that a path stands for is made of names**.
-/

import LineLint.Proofs.Tree.Resolution
import LineLint.Tree.Write

set_option relaxedAutoImplicit false
set_option autoImplicit false

namespace LineLint

/-- No name has a slash in it. -/
def Unslashed (names : List String) : Prop := ∀ name ∈ names, '/' ∉ name.toList

theorem Path.unslashed_components (cs : List Char) : Unslashed (components cs) := by
  intro name hname
  obtain ⟨piece, hpiece, rfl⟩ := List.mem_map.1 hname
  simpa using Text.not_mem_of_mem_splitAt (List.mem_of_mem_filter hpiece)

namespace Tree

variable {tree : Tree} {location : Location} {name : String}

/-! ### Names of entries -/

/-- All are names of entries. -/
def AreNames (location : Location) : Prop := ∀ name ∈ location, isName name = true

theorem areNames_nil : AreNames [] := by
  intro name hname
  cases hname

theorem AreNames.dropLast (h : AreNames location) : AreNames location.dropLast :=
  fun name hname => h name (List.dropLast_subset _ hname)

theorem AreNames.concat (h : AreNames location) (hname : isName name = true) :
    AreNames (location ++ [name]) :=
  List.forall_mem_append.2 ⟨h, List.forall_mem_singleton.2 hname⟩

theorem AreNames.startOf (h : AreNames location) (target : String) :
    AreNames (startOf location target) := by
  rw [Tree.startOf]
  split
  · exact areNames_nil
  · exact h

theorem unslashed_steps (target : String) : Unslashed (steps target) := by
  intro name hname
  obtain ⟨piece, hpiece, rfl⟩ := List.mem_map.1 hname
  simpa using Text.not_mem_of_mem_splitAt hpiece

/-- What is in a well-formed tree has names of entries on the way to it. -/
theorem areNames_of_at? (h : tree.wellFormed = true) {found : Tree}
    (hat : tree.at? location = some found) : AreNames location := by
  induction location generalizing tree with
  | nil => exact areNames_nil
  | cons name rest ih =>
      rw [at?_cons] at hat
      obtain ⟨inner, hinner, hat⟩ := Option.bind_eq_some_iff.1 hat
      refine List.forall_mem_cons.2 ⟨?_, ih (wellFormed_entry h hinner) hat⟩
      cases tree with
      | directory entries =>
          exact ((entriesWellFormed_iff.1 h).2 _ (mem_of_lookup_entries hinner)).1
      | file => cases hinner
      | link => cases hinner
      | pipe => cases hinner

theorem areNames_asWritten {parts : List String} (h : AreNames location)
    (hparts : Unslashed parts) : AreNames (asWritten location parts) := by
  induction parts generalizing location with
  | nil => exact h
  | cons name rest ih =>
      obtain ⟨hname, hrest⟩ := List.forall_mem_cons.1 hparts
      rw [asWritten]
      split
      · exact ih h hrest
      · next hmoves =>
          split
          · exact ih h.dropLast hrest
          · next hback =>
              exact ih (h.concat (isName_iff.2 ⟨hname, Bool.eq_false_iff.2 hmoves, hback⟩)) hrest

theorem areNames_remainder {parts : List String} (h : AreNames location)
    (hparts : Unslashed parts) : AreNames (remainder location parts) := by
  unfold remainder
  split
  · exact areNames_asWritten areNames_nil (List.forall_mem_cons.1 hparts).2
  · exact areNames_asWritten h hparts

theorem areNames_settle {inner : List Spot → Spot → List String → Settled} {busy : List Spot}
    {spot : Spot} {parts : List String}
    (hinner : ∀ busy spot parts, AreNames spot.location → Unslashed parts →
      AreNames (inner busy spot parts).location)
    (h : AreNames spot.location) (hparts : Unslashed parts) :
    AreNames (settle tree inner busy spot parts).location := by
  induction parts generalizing spot with
  | nil => exact h
  | cons name rest ih =>
      obtain ⟨hname, hrest⟩ := List.forall_mem_cons.1 hparts
      rcases step_cases tree spot.location name with
        hstays | rfl | ⟨hstays, hback, hstep⟩
      · rw [settle_stay hstays]
        exact ih h hrest
      · rw [settle_back]
        exact ih h.dropLast hrest
      · have hchild : AreNames (spot.child name).location :=
          h.concat (isName_iff.2 ⟨hname, hstays, hback⟩)
        rcases hstep with ⟨target, hlink⟩ | hother
        · rw [settle_of_link hstays hback hlink]
          split
          · exact areNames_remainder hchild hrest
          · have htarget := hinner (spot.child name :: busy) (spot.begin target) (steps target)
              (h.startOf target) (unslashed_steps target)
            split
            · next place hplace =>
                rw [hplace] at htarget
                exact ih htarget hrest
            · next place hplace =>
                rw [hplace] at htarget
                exact areNames_remainder htarget hrest
        · rw [settle_of_no_link hstays hback hother]
          exact ih hchild hrest

theorem areNames_resolveFrom {depth : Nat} {busy : List Spot} {spot : Spot} {parts : List String}
    (h : AreNames spot.location) (hparts : Unslashed parts) :
    AreNames (resolveFrom tree depth busy spot parts).location := by
  induction depth generalizing busy spot parts with
  | zero => exact h
  | succ depth ih => exact areNames_settle (fun _ _ _ => ih) h hparts

/-- The names that a path is resolved to are those of entries. -/
theorem areNames_resolve {directory : Location} {path : Path} (hdirectory : AreNames directory)
    (hparts : Unslashed path.parts) : AreNames (tree.resolve directory path).location := by
  refine areNames_resolveFrom ?_ hparts
  rw [Path.start]
  split
  · exact areNames_nil
  · exact hdirectory

theorem areNames_of_descend_vacant {onward : Location → List String → Found}
    {parts : List String} {place : Location}
    (honward : ∀ location parts place, AreNames location → Unslashed parts →
      onward location parts = .vacant place → AreNames place)
    (hlocation : AreNames location) (hparts : Unslashed parts)
    (h : descend tree onward location parts = .vacant place) : AreNames place := by
  induction parts generalizing location with
  | nil =>
      unfold descend at h
      split at h <;> cases h
  | cons name rest ih =>
      obtain ⟨hname, hrest⟩ := List.forall_mem_cons.1 hparts
      unfold descend at h
      split at h
      · cases h
      · split at h
        · cases h
        · split at h
          · exact ih hlocation hrest h
          · next hmoves =>
              split at h
              · exact ih hlocation.dropLast hrest h
              · next hback =>
                  have hchild : AreNames (location ++ [name]) :=
                    hlocation.concat (isName_iff.2 ⟨hname, Bool.eq_false_iff.2 hmoves, hback⟩)
                  split at h
                  · cases h
                  · split at h
                    · split at h
                      · cases h
                        exact hchild
                      · cases h
                    · next target _ =>
                        refine honward _ _ _ (hlocation.startOf target) ?_ h
                        exact List.forall_mem_append.2 ⟨unslashed_steps target, hrest⟩
                    · exact ih hchild hrest h

theorem areNames_of_follow_vacant {links : Nat} {parts : List String} {place : Location}
    (hlocation : AreNames location) (hparts : Unslashed parts)
    (h : follow tree links location parts = .vacant place) : AreNames place := by
  induction links generalizing location parts place with
  | zero =>
      refine areNames_of_descend_vacant (fun _ _ _ _ _ hnone => ?_) hlocation hparts h
      cases hnone
  | succ links ih => exact areNames_of_descend_vacant (fun _ _ _ => ih) hlocation hparts h

theorem areNames_reach (hwellFormed : tree.wellFormed = true) {names left : List String}
    {here place : Location} (hhere : AreNames here) (hnames : AreNames names)
    (h : reach tree here names = (place, left)) : AreNames place ∧ AreNames left := by
  induction names generalizing here with
  | nil =>
      cases h
      exact ⟨hhere, areNames_nil⟩
  | cons name rest ih =>
      obtain ⟨hname, hrest⟩ := List.forall_mem_cons.1 hnames
      unfold reach at h
      split at h
      · split at h
        · next next found hfound =>
            exact ih (areNames_of_at? hwellFormed (at?_of_follow hfound)) hrest h
        · cases h
          exact ⟨hhere, hnames⟩
      · exact ih (hhere.concat hname) hrest h

theorem areNames_target (hwellFormed : tree.wellFormed = true) {names : Location}
    (hnames : AreNames names) (h : tree.target names = .ok location) : AreNames location := by
  unfold target at h
  split at h
  · next hreach =>
      cases h
      exact (areNames_reach hwellFormed areNames_nil hnames hreach).1
  · next hreach =>
      obtain ⟨hhere, hleft⟩ := areNames_reach hwellFormed areNames_nil hnames hreach
      split at h
      · next hvacant =>
          cases h
          refine areNames_of_follow_vacant hhere ?_ hvacant
          exact fun name hname => (isName_iff.1 (hleft name (by simpa using hname))).1
      · cases h

/-! ### The location that a path stands for -/

/-- A path stands for the file at a location: it leads there; or it cannot be resolved, and its file
is found there when it is opened. -/
def StandsFor (tree : Tree) (directory : Location) (path : Path) (location : Location) : Prop :=
  tree.Leads (path.start directory) path.parts location ∨
    ∃ names, tree.resolve directory path = .looped names ∧ tree.leadsRound names = false ∧
      tree.target names = .ok location

theorem standsFor_of_reached {directory : Location} {path : Path} {spot : Spot}
    (h : tree.resolve directory path = .reached spot) :
    tree.StandsFor directory path spot.location :=
  Or.inl (reached_iff_leads.1 ⟨spot, h, rfl⟩)

/-- A path stands for one file at most. -/
theorem StandsFor.unique {directory : Location} {path : Path} {place : Location}
    (h : tree.StandsFor directory path location) (h' : tree.StandsFor directory path place) :
    location = place := by
  rcases h with hleads | ⟨names, hlooped, -, htarget⟩
  · obtain ⟨spot, hspot, rfl⟩ := reached_iff_leads.2 hleads
    rcases h' with hleads' | ⟨names', hlooped', -⟩
    · obtain ⟨spot', hspot', rfl⟩ := reached_iff_leads.2 hleads'
      rw [hspot] at hspot'
      cases hspot'
      rfl
    · rw [hspot] at hlooped'
      cases hlooped'
  · rcases h' with hleads' | ⟨names', hlooped', -, htarget'⟩
    · obtain ⟨spot', hspot', -⟩ := reached_iff_leads.2 hleads'
      rw [hlooped] at hspot'
      cases hspot'
    · rw [hlooped] at hlooped'
      cases hlooped'
      rw [htarget] at htarget'
      cases htarget'
      rfl

/-- The names on the way to the location of a path are names of entries. -/
theorem StandsFor.areNames {directory : Location} {path : Path}
    (h : tree.StandsFor directory path location) (hwellFormed : tree.wellFormed = true)
    (hdirectory : AreNames directory) (hparts : Unslashed path.parts) : AreNames location := by
  have hnames : AreNames (tree.resolve directory path).location :=
    areNames_resolve hdirectory hparts
  rcases h with hleads | ⟨names, hlooped, -, htarget⟩
  · obtain ⟨spot, hspot, rfl⟩ := reached_iff_leads.2 hleads
    rwa [hspot] at hnames
  · rw [hlooped] at hnames
    exact areNames_target hwellFormed hnames htarget

end Tree

end LineLint
