/-
**Where a path resolves to.**

Steps lead from one location to another one if following them comes to an end, with the targets of
the links on the way followed in the same manner.  A path that leads somewhere resolves to the
location that it leads to; nothing has to be kept as it is written.

Two things could stop the resolution before.  A link that is being followed could be met again: but
then its target would lead somewhere only with targets in targets of its own depth.  And the bound
on the depth could be too low: but the links that are being followed differ, and there are only so
many.

All links on the way are followed, so there is none on the way to the location that is reached, nor
at the location itself.

Main definitions:

* `LineLint.Tree.Leads` — **steps lead from one location to another one**;
* `LineLint.Tree.Within` — the same, with targets in targets to a given depth;
* `LineLint.Tree.SameLinks` — two trees have the same links;
* `LineLint.Tree.Unlinked` — there is no link on the way to a location, or at the location.

Main results:

* `LineLint.Tree.resolveFrom_extra` — more depth than is allowed changes nothing;
* `LineLint.Tree.reached_iff_leads` — **a path is resolved to the location that it leads to**;
* `LineLint.Tree.reached_congr` — that location depends on the links alone;
* `LineLint.Tree.Leads.unlinked` — **no link is left on the way to it**.
-/

import LineLint.Proofs.Tree.Lookup
import Mathlib.Data.List.Perm.Subperm
import Mathlib.Data.Nat.Find

set_option relaxedAutoImplicit false
set_option autoImplicit false

namespace LineLint.Tree

variable {a b tree : Tree} {location place resolved : Location} {name target : String}
  {parts rest : List String} {inner inner' : List Spot → Spot → List String → Settled}
  {busy : List Spot} {spot reached : Spot} {depth depth' : Nat}

/-! ### One step -/

theorem settle_stay (h : stays name = true) :
    settle tree inner busy spot (name :: rest) = settle tree inner busy spot rest := by
  rw [settle, if_pos h]

theorem settle_back :
    settle tree inner busy spot (".." :: rest) = settle tree inner busy spot.parent rest := by
  rw [settle, if_neg (by decide), if_pos rfl]

theorem settle_of_link (hstays : stays name = false) (hback : name ≠ "..")
    (hlink : tree.at? (spot.child name).location = some (.link target)) :
    settle tree inner busy spot (name :: rest) =
      if spot.child name ∈ busy then .looped (remainder (spot.child name).location rest)
      else
        match inner (spot.child name :: busy) (spot.begin target) (steps target) with
        | .reached place => settle tree inner busy place rest
        | .looped place => .looped (remainder place rest) := by
  rw [settle, if_neg (by simp [hstays]), if_neg hback]
  split
  · next target' hlink' =>
      rw [hlink] at hlink'
      cases hlink'
      rfl
  · next hother => exact absurd hlink (hother target)

theorem settle_of_no_link (hstays : stays name = false) (hback : name ≠ "..")
    (hother : ∀ target, tree.at? (spot.child name).location ≠ some (.link target)) :
    settle tree inner busy spot (name :: rest) =
      settle tree inner busy (spot.child name) rest := by
  rw [settle, if_neg (by simp [hstays]), if_neg hback]
  split
  · next target hlink => exact absurd hlink (hother target)
  · rfl

/-- A step stays, leads back, is that of a link, or leads on. -/
theorem step_cases (tree : Tree) (location : Location) (name : String) :
    stays name = true ∨ name = ".." ∨ stays name = false ∧ name ≠ ".." ∧
      ((∃ target, tree.at? (location ++ [name]) = some (.link target)) ∨
        ∀ target, tree.at? (location ++ [name]) ≠ some (.link target)) := by
  by_cases hstays : stays name = true
  · exact Or.inl hstays
  · by_cases hback : name = ".."
    · exact Or.inr (Or.inl hback)
    · refine Or.inr (Or.inr ⟨Bool.eq_false_iff.2 hstays, hback, ?_⟩)
      exact (Classical.em _).imp_right not_exists.1

/-! ### What steps lead to -/

/-- Steps lead from a location to another one.  A link stands for what the steps of its target lead
to. -/
inductive Leads (tree : Tree) : Location → List String → Location → Prop
  | here (location : Location) : Leads tree location [] location
  | stay {location resolved : Location} {name : String} {rest : List String} :
      stays name = true → Leads tree location rest resolved →
      Leads tree location (name :: rest) resolved
  | back {location resolved : Location} {rest : List String} :
      Leads tree location.dropLast rest resolved → Leads tree location (".." :: rest) resolved
  | link {location place resolved : Location} {name target : String} {rest : List String} :
      stays name = false → name ≠ ".." → tree.at? (location ++ [name]) = some (.link target) →
      Leads tree (startOf location target) (steps target) place →
      Leads tree place rest resolved → Leads tree location (name :: rest) resolved
  | down {location resolved : Location} {name : String} {rest : List String} :
      stays name = false → name ≠ ".." →
      (∀ target, tree.at? (location ++ [name]) ≠ some (.link target)) →
      Leads tree (location ++ [name]) rest resolved → Leads tree location (name :: rest) resolved

theorem Leads.of_settle
    (hinner : ∀ busy spot parts reached, inner busy spot parts = .reached reached →
      tree.Leads spot.location parts reached.location)
    (h : settle tree inner busy spot parts = .reached reached) :
    tree.Leads spot.location parts reached.location := by
  induction parts generalizing spot with
  | nil =>
      cases h
      exact .here _
  | cons name rest ih =>
      rcases step_cases tree spot.location name with
        hstays | rfl | ⟨hstays, hback, ⟨target, hlink⟩ | hother⟩
      · rw [settle_stay hstays] at h
        exact .stay hstays (ih h)
      · rw [settle_back] at h
        exact .back (ih h)
      · rw [settle_of_link hstays hback hlink] at h
        split at h
        · cases h
        · split at h
          · next place hplace => exact .link hstays hback hlink (hinner _ _ _ _ hplace) (ih h)
          · cases h
      · rw [settle_of_no_link hstays hback hother] at h
        exact .down hstays hback hother (ih h)

theorem Leads.of_resolveFrom (h : resolveFrom tree depth busy spot parts = .reached reached) :
    tree.Leads spot.location parts reached.location := by
  induction depth generalizing busy spot parts reached with
  | zero => cases h
  | succ depth ih => exact .of_settle (fun _ _ _ _ => ih) h

/-! ### Targets in targets -/

/-- Steps lead from a location to another one, with targets followed inside of targets at most so
many times. -/
inductive Within (tree : Tree) : Nat → Location → List String → Location → Prop
  | here (depth : Nat) (location : Location) : Within tree depth location [] location
  | stay {depth : Nat} {location resolved : Location} {name : String} {rest : List String} :
      stays name = true → Within tree depth location rest resolved →
      Within tree depth location (name :: rest) resolved
  | back {depth : Nat} {location resolved : Location} {rest : List String} :
      Within tree depth location.dropLast rest resolved →
      Within tree depth location (".." :: rest) resolved
  | link {depth : Nat} {location place resolved : Location} {name target : String}
      {rest : List String} :
      stays name = false → name ≠ ".." → tree.at? (location ++ [name]) = some (.link target) →
      Within tree depth (startOf location target) (steps target) place →
      Within tree (depth + 1) place rest resolved →
      Within tree (depth + 1) location (name :: rest) resolved
  | down {depth : Nat} {location resolved : Location} {name : String} {rest : List String} :
      stays name = false → name ≠ ".." →
      (∀ target, tree.at? (location ++ [name]) ≠ some (.link target)) →
      Within tree depth (location ++ [name]) rest resolved →
      Within tree depth location (name :: rest) resolved

theorem Within.mono (h : tree.Within depth location parts resolved) (hle : depth ≤ depth') :
    tree.Within depth' location parts resolved := by
  induction h generalizing depth' with
  | here depth location => exact .here _ _
  | stay hstays _ ih => exact .stay hstays (ih hle)
  | back _ ih => exact .back (ih hle)
  | link hstays hback hlink _ _ ihtarget ihrest =>
      obtain ⟨more, rfl⟩ := Nat.exists_eq_add_one_of_ne_zero (by omega : depth' ≠ 0)
      exact .link hstays hback hlink (ihtarget (by omega)) (ihrest hle)
  | down hstays hback hother _ ih => exact .down hstays hback hother (ih hle)

/-- Some depth is enough for steps that lead somewhere. -/
theorem Leads.exists_within (h : tree.Leads location parts resolved) :
    ∃ depth, tree.Within depth location parts resolved := by
  induction h with
  | here location => exact ⟨0, .here 0 location⟩
  | stay hstays _ ih =>
      obtain ⟨depth, hdepth⟩ := ih
      exact ⟨depth, .stay hstays hdepth⟩
  | back _ ih =>
      obtain ⟨depth, hdepth⟩ := ih
      exact ⟨depth, .back hdepth⟩
  | link hstays hback hlink _ _ ihtarget ihrest =>
      obtain ⟨first, hfirst⟩ := ihtarget
      obtain ⟨second, hsecond⟩ := ihrest
      refine ⟨max first second + 1, .link hstays hback hlink (hfirst.mono (by omega)) ?_⟩
      exact hsecond.mono (by omega)
  | down hstays hback hother _ ih =>
      obtain ⟨depth, hdepth⟩ := ih
      exact ⟨depth, .down hstays hback hother hdepth⟩

/-- Steps lead to no more than one location. -/
theorem Within.unique (h : tree.Within depth location parts resolved)
    (h' : tree.Within depth' location parts place) : resolved = place := by
  have hdots : stays ".." = false := by decide
  induction h generalizing depth' place with
  | here depth location =>
      cases h'
      rfl
  | stay hstays _ ih =>
      cases h' with
      | stay _ hrest => exact ih hrest
      | back => simp [hdots] at hstays
      | link hmoves => simp [hmoves] at hstays
      | down hmoves => simp [hmoves] at hstays
  | back _ ih =>
      cases h' with
      | stay hstays => simp [hdots] at hstays
      | back hrest => exact ih hrest
      | link _ hback => exact absurd rfl hback
      | down _ hback => exact absurd rfl hback
  | link hmoves hback hlink _ _ ihtarget ihrest =>
      cases h' with
      | stay hstays => simp [hmoves] at hstays
      | back => exact absurd rfl hback
      | link _ _ hlink' htarget hrest =>
          cases hlink.symm.trans hlink'
          cases ihtarget htarget
          exact ihrest hrest
      | down _ _ hother => exact absurd hlink (hother _)
  | down hmoves hback hother _ ih =>
      cases h' with
      | stay hstays => simp [hmoves] at hstays
      | back => exact absurd rfl hback
      | link _ _ hlink => exact absurd hlink (hother _)
      | down _ _ _ hrest => exact ih hrest

/-! ### Links that are being followed -/

/-- The target of the link at a location, if there is one, needs at least this depth. -/
def Deep (tree : Tree) (depth : Nat) (place : Location) : Prop :=
  ∀ target, tree.at? place = some (.link target) → ∀ less < depth, ∀ found,
    ¬tree.Within less (startOf place.dropLast target) (steps target) found

/-- Steps that lead somewhere are resolved, if the links that are being followed need at least the
depth of these steps: then none of them is met again. -/
theorem Within.exists_reached (h : tree.Within depth spot.location parts resolved)
    (hbusy : ∀ other ∈ busy, tree.Deep depth other.location) (hle : depth ≤ depth') :
    ∃ reached, resolveFrom tree (depth' + 1) busy spot parts = .reached reached ∧
      reached.location = resolved := by
  -- induction on the depth for the targets of links, and on the steps for what comes behind them
  induction depth using Nat.strong_induction_on generalizing depth' busy spot parts resolved with
  | _ depth ihdepth =>
      rw [resolveFrom]
      induction parts generalizing spot with
      | nil =>
          cases h
          exact ⟨spot, rfl, rfl⟩
      | cons name rest ih =>
          cases h with
          | stay hstays hrest =>
              rw [settle_stay hstays]
              exact ih hrest
          | back hrest =>
              rw [settle_back]
              exact ih hrest
          | @link less _ next _ _ target _ hstays hback hlink htarget hrest =>
              have hfresh : spot.child name ∉ busy := by
                intro hmem
                refine hbusy _ hmem target hlink less (by omega) next ?_
                rwa [Spot.child, List.dropLast_concat]
              -- the least depth at which the target leads somewhere
              have hexists : ∃ least,
                  tree.Within least (startOf spot.location target) (steps target) next :=
                ⟨less, htarget⟩
              classical
              have hleast : Nat.find hexists ≤ less := Nat.find_min' hexists htarget
              obtain ⟨more, rfl⟩ := Nat.exists_eq_add_one_of_ne_zero (by omega : depth' ≠ 0)
              have hdeep : ∀ other ∈ spot.child name :: busy,
                  tree.Deep (Nat.find hexists) other.location := by
                refine List.forall_mem_cons.2 ⟨?_, ?_⟩
                · intro target' hlink' lower hlower found hfound
                  cases hlink.symm.trans hlink'
                  rw [Spot.child, List.dropLast_concat] at hfound
                  cases hfound.unique htarget
                  exact Nat.find_min hexists hlower hfound
                · intro other hother target' hlink' lower hlower
                  exact hbusy other hother target' hlink' lower (by omega)
              have hfound : ∃ place, resolveFrom tree (more + 1) (spot.child name :: busy)
                  (spot.begin target) (steps target) = .reached place ∧ place.location = next :=
                ihdepth _ (by omega) (Nat.find_spec hexists) hdeep (by omega)
              obtain ⟨place, hplace, rfl⟩ := hfound
              rw [settle_of_link hstays hback hlink, if_neg hfresh, hplace]
              exact ih hrest
          | down hstays hback hother hrest =>
              rw [settle_of_no_link hstays hback hother]
              exact ih hrest

/-! ### As much depth as there are links -/

theorem mem_entriesLinks {here : Location} {entries : List (String × Tree)} {entry : String × Tree}
    (hentry : entry ∈ entries) (h : place ∈ links (here ++ [entry.1]) entry.2) :
    place ∈ entriesLinks here entries := by
  induction entries with
  | nil => cases hentry
  | cons first entries ih =>
      rw [entriesLinks, List.mem_append, entryLinks.eq_def]
      rcases List.mem_cons.1 hentry with rfl | hentry
      · exact Or.inl h
      · exact Or.inr (ih hentry)

/-- All links are listed. -/
theorem mem_links (h : tree.at? place = some (.link target)) (here : Location) :
    here ++ place ∈ tree.links here := by
  induction place generalizing tree here with
  | nil =>
      rw [at?_nil] at h
      cases h
      simp [links]
  | cons name rest ih =>
      rw [at?_cons] at h
      obtain ⟨sub, hsub, hrest⟩ := Option.bind_eq_some_iff.1 h
      cases tree with
      | directory entries =>
          rw [links]
          have hentry : (name, sub) ∈ entries := mem_of_lookup_entries hsub
          exact mem_entriesLinks hentry (by simpa using ih hrest (here ++ [name]))
      | file => cases hsub
      | link => cases hsub
      | pipe => cases hsub

/-- The spots of all links: each link can be met on two kinds of ways. -/
def linkSpots (tree : Tree) : List Spot :=
  (tree.links []).map (Spot.mk · true) ++ (tree.links []).map (Spot.mk · false)

theorem length_linkSpots (tree : Tree) :
    (linkSpots tree).length = 2 * (tree.links []).length := by
  rw [linkSpots, List.length_append, List.length_map, List.length_map]
  omega

theorem mem_linkSpots (h : tree.at? spot.location = some (.link target)) :
    spot ∈ linkSpots tree := by
  have hmem : spot.location ∈ tree.links [] := mem_links h []
  obtain ⟨location, rooted⟩ := spot
  cases rooted with
  | true => exact List.mem_append_left _ (List.mem_map.2 ⟨location, hmem, rfl⟩)
  | false => exact List.mem_append_right _ (List.mem_map.2 ⟨location, hmem, rfl⟩)

theorem settle_congr
    (hinner : ∀ here target start, tree.at? here.location = some (.link target) → here ∉ busy →
      inner (here :: busy) start (steps target) = inner' (here :: busy) start (steps target)) :
    settle tree inner busy spot parts = settle tree inner' busy spot parts := by
  induction parts generalizing spot with
  | nil => rfl
  | cons name rest ih =>
      rcases step_cases tree spot.location name with
        hstays | rfl | ⟨hstays, hback, ⟨target, hlink⟩ | hother⟩
      · rw [settle_stay hstays, settle_stay hstays, ih]
      · rw [settle_back, settle_back, ih]
      · rw [settle_of_link hstays hback hlink, settle_of_link hstays hback hlink]
        split
        · rfl
        · next hfresh =>
            rw [hinner _ _ _ hlink hfresh]
            split
            · exact ih
            · rfl
      · rw [settle_of_no_link hstays hback hother, settle_of_no_link hstays hback hother, ih]

/-- The depth that is left is enough if it makes up, with the links that are being followed, for all
links there are. -/
theorem resolveFrom_succ (hnodup : busy.Nodup) (hbusy : busy ⊆ linkSpots tree)
    (hle : (linkSpots tree).length + 1 ≤ depth + busy.length) :
    resolveFrom tree depth busy spot parts = resolveFrom tree (depth + 1) busy spot parts := by
  induction depth generalizing busy spot parts with
  | zero =>
      have hcount := (List.Nodup.subperm hnodup hbusy).length_le
      omega
  | succ depth ih =>
      rw [resolveFrom, resolveFrom]
      refine settle_congr fun here target start hlink hfresh => ih ?_ ?_ ?_
      · exact List.nodup_cons.2 ⟨hfresh, hnodup⟩
      · exact List.cons_subset.2 ⟨mem_linkSpots hlink, hbusy⟩
      · rw [List.length_cons]
        omega

/-- More depth than is allowed changes nothing. -/
theorem resolveFrom_extra (tree : Tree) (spot : Spot) (parts : List String) (extra : Nat) :
    resolveFrom tree (2 * (tree.links []).length + 1 + extra) [] spot parts =
      resolveFrom tree (2 * (tree.links []).length + 1) [] spot parts := by
  induction extra with
  | zero => rfl
  | succ extra ih =>
      rw [← ih, ← Nat.add_assoc]
      refine (resolveFrom_succ List.nodup_nil (List.nil_subset _) ?_).symm
      rw [length_linkSpots, List.length_nil]
      omega

/-- **A path is resolved to the location that it leads to.** -/
theorem reached_iff_leads {directory : Location} {path : Path} :
    (∃ spot, tree.resolve directory path = .reached spot ∧ spot.location = resolved) ↔
      tree.Leads (path.start directory) path.parts resolved := by
  constructor
  · rintro ⟨spot, hspot, rfl⟩
    exact Leads.of_resolveFrom hspot
  · intro h
    obtain ⟨depth, hdepth⟩ := h.exists_within
    have hbusy : ∀ other ∈ ([] : List Spot), tree.Deep depth other.location := by simp
    have hreached : ∃ reached, resolveFrom tree (2 * (tree.links []).length + depth + 1) []
        ⟨path.start directory, path.isAbsolute⟩ path.parts = .reached reached ∧
          reached.location = resolved :=
      hdepth.exists_reached hbusy (Nat.le_add_left _ _)
    rwa [Nat.add_right_comm, resolveFrom_extra] at hreached

/-! ### Trees with the same links -/

/-- Two trees have the same links. -/
def SameLinks (a b : Tree) : Prop :=
  ∀ place target, a.at? place = some (.link target) ↔ b.at? place = some (.link target)

theorem Leads.congr (hsame : a.SameLinks b) (h : a.Leads location parts resolved) :
    b.Leads location parts resolved := by
  induction h with
  | here location => exact .here location
  | stay hstays _ ih => exact .stay hstays ih
  | back _ ih => exact .back ih
  | link hstays hback hlink _ _ ihtarget ihrest =>
      exact .link hstays hback ((hsame _ _).1 hlink) ihtarget ihrest
  | down hstays hback hother _ ih =>
      exact .down hstays hback (fun target => mt (hsame _ target).2 (hother target)) ih

/-- The location that a path is resolved to depends on the links alone. -/
theorem reached_congr (h : a.SameLinks b) {directory : Location} {path : Path}
    (hspot : a.resolve directory path = .reached spot) :
    ∃ reached, b.resolve directory path = .reached reached ∧
      reached.location = spot.location :=
  reached_iff_leads.2 (.congr h (reached_iff_leads.1 ⟨spot, hspot, rfl⟩))

/-! ### No links on the way -/

/-- There is no link on the way to a location, or at the location, other than the tree itself. -/
def Unlinked (tree : Tree) (location : Location) : Prop :=
  ∀ front, front <+: location → front ≠ [] → ∀ target, tree.at? front ≠ some (.link target)

theorem unlinked_nil (tree : Tree) : tree.Unlinked [] := by
  intro front hfront hne
  exact absurd (List.prefix_nil.1 hfront) hne

theorem Unlinked.dropLast (h : tree.Unlinked location) : tree.Unlinked location.dropLast := by
  intro front hfront
  exact h front (hfront.trans (List.dropLast_prefix location))

theorem Unlinked.concat (h : tree.Unlinked location)
    (hother : ∀ target, tree.at? (location ++ [name]) ≠ some (.link target)) :
    tree.Unlinked (location ++ [name]) := by
  intro front hfront hne
  rcases List.prefix_concat_iff.1 hfront with rfl | hfront
  · exact hother
  · exact h front hfront hne

theorem Unlinked.startOf (h : tree.Unlinked location) (target : String) :
    tree.Unlinked (startOf location target) := by
  rw [Tree.startOf]
  split
  · exact unlinked_nil tree
  · exact h

/-- **No link is left on the way** to the location that steps lead to. -/
theorem Leads.unlinked (h : tree.Leads location parts resolved)
    (hlocation : tree.Unlinked location) : tree.Unlinked resolved := by
  induction h with
  | here location => exact hlocation
  | stay _ _ ih => exact ih hlocation
  | back _ ih => exact ih hlocation.dropLast
  | link _ _ _ _ _ ihtarget ihrest => exact ihrest (ihtarget (hlocation.startOf _))
  | down _ _ hother _ ih => exact ih (hlocation.concat hother)

end LineLint.Tree
