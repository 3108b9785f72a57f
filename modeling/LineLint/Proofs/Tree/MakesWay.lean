/-
**What a write leaves, location by location.**

A write that succeeds puts the file at its location and makes the directories on the way that are
missing; every other location is as it was, and writing the same once more changes nothing.  A
write that fails leaves the tree alone, unless a name is too long: the directories above that name
are made before it is looked at, and they stay.

Main definitions:

* `LineLint.Tree.MakesWay` — **a tree has directories on the way to a location that were missing in
  another one**, and nothing else differs but perhaps the location itself;
* `LineLint.Tree.Writable` — a file can be written at a location;
* `LineLint.Tree.Refuses` — why a file cannot be written, other than names that are too long;
* `LineLint.Tree.TooLong`, `LineLint.Tree.FallsShort` — a name on the way, or the way itself, is too
  long, and what a write leaves then.

Main results:

* `LineLint.Tree.put_put` — putting the same twice is putting it once;
* `LineLint.Tree.makesWay_put`, `LineLint.Tree.makesWay_makeDirectory` — what is at each location
  after something was put somewhere, or a directory made;
* `LineLint.Tree.makesWay_of_write`, `LineLint.Tree.write_again` — **a write that succeeds**, and
  the same write after it;
* `LineLint.Tree.refuses_or_fallsShort_of_write_error` — **a write that fails**.
-/

import LineLint.Proofs.Tree.Alike
import LineLint.Proofs.Tree.Resolution
import LineLint.Proofs.Tree.Write

set_option relaxedAutoImplicit false
set_option autoImplicit false

namespace LineLint.Tree

variable {tree before after new : Tree} {location place front directory : Location} {name : String}
  {shown : Location → String} {content : List UInt8} {path : Path} {failure : WriteFailure}
  {spot : Spot} {written : Written}

/-! ### Putting something twice -/

theorem change_change (name : String) (f g : Option Tree → Tree) (entries : List (String × Tree)) :
    change name f (change name g entries) = change name (fun old => f (some (g old))) entries := by
  induction entries with
  | nil => simp [change]
  | cons entry entries ih =>
      by_cases hname : entry.1 = name
      · simp [change, hname]
      · simp [change, hname, ih]

/-- Putting the same twice is putting it once. -/
theorem put_put (new : Tree) (location : Location) (tree : Tree) :
    put new location (put new location tree) = put new location tree := by
  induction location generalizing tree with
  | nil => rw [put, put]
  | cons name rest ih =>
      cases htree : tree.isDirectory with
      | false => rw [put_cons_of_leaf htree, put_cons_of_leaf htree]
      | true =>
          obtain ⟨entries, rfl⟩ := exists_entries_of_isDirectory htree
          rw [put_cons, put_cons, change_change]
          simp only [Option.getD_some, ih]

/-! ### What is where after something was put -/

theorem at?_empty_of_ne_nil (h : place ≠ []) : (Tree.directory []).at? place = none := by
  cases place with
  | nil => exact absurd rfl h
  | cons name rest => rfl

/-- Nothing changes but on the way to the location, and below it. -/
theorem at?_put_of_apart (new tree : Tree) (hfront : ¬place <+: location)
    (hbelow : ¬location <+: place) : (put new location tree).at? place = tree.at? place := by
  induction location generalizing tree place with
  | nil => exact absurd List.nil_prefix hbelow
  | cons name rest ih =>
      cases htree : tree.isDirectory with
      | false => rw [put_cons_of_leaf htree]
      | true =>
          obtain ⟨entries, rfl⟩ := exists_entries_of_isDirectory htree
          cases place with
          | nil => exact absurd List.nil_prefix hfront
          | cons other more =>
              by_cases hother : other = name
              · subst hother
                have hfront : ¬more <+: rest := by simpa using hfront
                have hbelow : ¬rest <+: more := by simpa using hbelow
                rw [at?_put_cons_self, ih _ hfront hbelow, at?_cons, entry?]
                cases entries.lookup other with
                | some sub => rfl
                | none =>
                    refine at?_empty_of_ne_nil ?_
                    rintro rfl
                    exact hfront List.nil_prefix
              · exact at?_put_cons_of_ne hother new rest more entries

/-- Whatever was on the way to the location is a directory afterwards. -/
theorem kind_at?_put_of_clear (h : tree.Clear location) (hfront : front <+: location)
    (hne : front ≠ location) : ((put new location tree).at? front).map kind = some .directory := by
  induction location generalizing tree front with
  | nil => exact absurd (List.prefix_nil.1 hfront) hne
  | cons name rest ih =>
      obtain ⟨entries, rfl⟩ := h.exists_entries
      cases front with
      | nil =>
          rw [put_cons, at?_nil]
          rfl
      | cons other more =>
          obtain ⟨rfl, hmore⟩ := List.cons_prefix_cons.1 hfront
          rw [at?_put_cons_self]
          exact ih h.tail hmore (by simpa using hne)

/-- On the way to the location everything is as it was, or a directory that was missing. -/
theorem kind_at?_put_of_front (new tree : Tree) (hfront : front <+: location)
    (hne : front ≠ location) :
    ((put new location tree).at? front).map kind = (tree.at? front).map kind ∨
      tree.at? front = none ∧ ((put new location tree).at? front).map kind = some .directory := by
  induction location generalizing tree front with
  | nil => exact absurd (List.prefix_nil.1 hfront) hne
  | cons name rest ih =>
      cases htree : tree.isDirectory with
      | false => exact Or.inl (by rw [put_cons_of_leaf htree])
      | true =>
          obtain ⟨entries, rfl⟩ := exists_entries_of_isDirectory htree
          cases front with
          | nil =>
              rw [put_cons, at?_nil, at?_nil]
              exact Or.inl rfl
          | cons other more =>
              obtain ⟨rfl, hmore⟩ := List.cons_prefix_cons.1 hfront
              have hne : more ≠ rest := by simpa using hne
              rw [at?_put_cons_self, at?_cons, entry?]
              cases entries.lookup other with
              | some sub => exact ih sub hmore hne
              | none => exact Or.inr ⟨rfl, kind_at?_put_of_clear (clear_empty rest) hmore hne⟩

/-! ### Directories that are made on the way -/

/-- A tree has directories on the way to a location that were missing in another one.  Apart from
them, and perhaps from the location itself, all is the same. -/
structure MakesWay (before : Tree) (location : Location) (after : Tree) : Prop where
  ancestors : ∀ front, front <+: location → front ≠ location →
    (after.at? front).map kind = (before.at? front).map kind ∨
      before.at? front = none ∧ (after.at? front).map kind = some .directory
  elsewhere : ∀ place, ¬place <+: location → after.at? place = before.at? place

theorem MakesWay.refl (tree : Tree) (location : Location) : tree.MakesWay location tree :=
  ⟨fun _ _ _ => Or.inl rfl, fun _ _ => rfl⟩

theorem at?_append_of_none (h : tree.at? location = none) (below : Location) :
    tree.at? (location ++ below) = none := by
  rw [at?_append, h]
  rfl

theorem at?_append_of_leaf {inner : Tree} (h : tree.at? location = some inner)
    (hleaf : inner.isDirectory = false) {below : Location} (hbelow : below ≠ []) :
    tree.at? (location ++ below) = none := by
  rw [at?_append, h]
  refine Option.eq_none_iff_forall_ne_some.2 fun found hfound => ?_
  exact hbelow ((at?_eq_some_iff_of_leaf hleaf).1 hfound).1

/-- A file that is put where no directory is makes its way. -/
theorem makesWay_put (hclear : tree.Clear location)
    (hnone : ∀ entries, tree.at? location ≠ some (.directory entries)) :
    tree.MakesWay location (put (.file content) location tree) := by
  refine ⟨fun front => kind_at?_put_of_front _ tree, fun place hfront => ?_⟩
  by_cases hbelow : location <+: place
  · -- below a location without a directory there is nothing, before and afterwards
    obtain ⟨below, rfl⟩ := hbelow
    have hne : below ≠ [] := by
      rintro rfl
      simp at hfront
    rw [at?_append_of_leaf (at?_put_self hclear) rfl hne]
    cases hat : tree.at? location with
    | none => exact (at?_append_of_none hat below).symm
    | some inner =>
        cases hleaf : inner.isDirectory with
        | false => exact (at?_append_of_leaf hat hleaf hne).symm
        | true =>
            obtain ⟨entries, rfl⟩ := exists_entries_of_isDirectory hleaf
            exact absurd hat (hnone entries)
  · exact at?_put_of_apart _ tree hfront hbelow

theorem at?_put_empty_below (tree : Tree) (place : Location) {below : Location}
    (hbelow : below ≠ []) : (put (.directory []) place tree).at? (place ++ below) = none := by
  rcases at?_put_self_or_none (.directory []) place tree with hmade | hnone
  · rw [at?_append, hmade]
    exact at?_empty_of_ne_nil hbelow
  · exact at?_append_of_none hnone below

/-- A directory that is made on the way to a location, and those above it, make the way and leave
the location alone. -/
theorem makesWay_makeDirectory (tree : Tree) (hplace : place <+: location)
    (hne : place ≠ location) :
    tree.MakesWay location (makeDirectory place tree) ∧
      (makeDirectory place tree).at? location = tree.at? location := by
  cases hat : tree.at? place with
  | some found =>
      rw [makeDirectory, hat, Option.isSome_some, if_pos rfl]
      exact ⟨.refl tree location, rfl⟩
  | none =>
      have hmade : makeDirectory place tree = put (.directory []) place tree := by
        rw [makeDirectory, hat, Option.isSome_none, if_neg Bool.false_ne_true]
      rw [hmade]
      -- behind the place there is nothing, before and afterwards
      have hbehind {below : Location} (hbelow : below ≠ []) :
          (put (.directory []) place tree).at? (place ++ below) = tree.at? (place ++ below) := by
        rw [at?_put_empty_below tree place hbelow, at?_append_of_none hat]
      obtain ⟨rest, rfl⟩ := hplace
      have hrest : rest ≠ [] := by
        rintro rfl
        simp at hne
      refine ⟨⟨fun front hfront _ => ?_, fun other hother => ?_⟩, hbehind hrest⟩
      · rcases List.prefix_or_prefix_of_prefix hfront (List.prefix_append place rest) with
          habove | ⟨below, rfl⟩
        · by_cases hself : front = place
          · subst hself
            rcases at?_put_self_or_none (.directory []) front tree with hput | hput
            · exact Or.inr ⟨hat, by rw [hput]; rfl⟩
            · exact Or.inl (by rw [hput, hat])
          · exact kind_at?_put_of_front _ tree habove hself
        · by_cases hbelow : below = []
          · subst hbelow
            rw [List.append_nil]
            rcases at?_put_self_or_none (.directory []) place tree with hput | hput
            · exact Or.inr ⟨hat, by rw [hput]; rfl⟩
            · exact Or.inl (by rw [hput, hat])
          · exact Or.inl (by rw [hbehind hbelow])
      · by_cases hbelow : place <+: other
        · obtain ⟨below, rfl⟩ := hbelow
          refine hbehind ?_
          rintro rfl
          exact hother (by simp)
        · refine at?_put_of_apart _ tree (fun habove => hother ?_) hbelow
          exact habove.trans (List.prefix_append place rest)

/-! ### Links stay -/

theorem map_kind_eq_link_iff {found : Option Tree} {target : String} :
    found.map kind = some (.link target) ↔ found = some (.link target) := by
  constructor
  · intro h
    obtain ⟨inner, rfl, hkind⟩ := Option.map_eq_some_iff.1 h
    cases inner with
    | link target' =>
        cases hkind
        rfl
    | file => cases hkind
    | directory => cases hkind
    | pipe => cases hkind
  · rintro rfl
    rfl

/-- Making the way to a file changes no link, unless the file takes the place of one. -/
theorem MakesWay.sameLinks (h : before.MakesWay location after)
    (hfile : after.at? location = some (.file content))
    (hbefore : ∀ target, before.at? location ≠ some (.link target)) : before.SameLinks after := by
  intro place target
  by_cases hfront : place <+: location
  · by_cases hself : place = location
    · subst hself
      refine iff_of_false (hbefore target) fun hlink => ?_
      cases hfile.symm.trans hlink
    · rw [← map_kind_eq_link_iff, ← map_kind_eq_link_iff]
      rcases h.ancestors place hfront hself with hsame | ⟨hnone, hmade⟩
      · rw [hsame]
      · rw [hnone, hmade]
        exact iff_of_false nofun nofun
  · rw [h.elsewhere place hfront]

/-! ### A write that succeeds -/

/-- A file can be written at a location. -/
structure Writable (tree : Tree) (shown : Location → String) (location : Location) : Prop where
  parent : checkParent tree shown location.dropLast = .ok ()
  name : ∃ name, location.getLast? = some name ∧ isTooLong name = false
  near : isTooFar (shown location) = false
  notDirectory : ∀ entries, tree.at? location ≠ some (.directory entries)
  notPipe : tree.at? location ≠ some .pipe

theorem writable_of_writeAt (h : tree.writeAt shown location content = .ok after) :
    tree.Writable shown location := by
  unfold writeAt at h
  split at h
  · cases h
  · next name hlast =>
      split at h
      · cases h
      · next hparent =>
          split at h
          · cases h
          · next hfits =>
              obtain ⟨hshort, hnear⟩ := Bool.or_eq_false_iff.1 (Bool.eq_false_iff.2 hfits)
              split at h
              · cases h
              · cases h
              · next hdirectory hpipe =>
                  exact ⟨hparent, ⟨name, hlast, hshort⟩, hnear, hdirectory, hpipe⟩

theorem Writable.writeAt (h : tree.Writable shown location) (content : List UInt8) :
    tree.writeAt shown location content = .ok (put (.file content) location tree) := by
  obtain ⟨name, hlast, hshort⟩ := h.name
  simp only [Tree.writeAt, hlast, h.parent, hshort, h.near, Bool.or_self, Bool.false_eq_true,
    if_false]
  split
  · next entries hdirectory => exact absurd hdirectory (h.notDirectory entries)
  · next hpipe => exact absurd hpipe h.notPipe
  · rfl

theorem Writable.ne_nil (h : tree.Writable shown location) : location ≠ [] := by
  obtain ⟨name, hlast, -⟩ := h.name
  rintro rfl
  cases hlast

theorem dropLast_ne_self (h : location ≠ []) : location.dropLast ≠ location := by
  intro hsame
  have hlength := congrArg List.length hsame
  have hpos := List.length_pos_of_ne_nil h
  rw [List.length_dropLast] at hlength
  omega

theorem prefix_dropLast_of_ne (hfront : front <+: location) (hne : front ≠ location) :
    front <+: location.dropLast := by
  rcases List.eq_nil_or_concat' location with rfl | ⟨parent, name, rfl⟩
  · exact hfront
  · rw [List.dropLast_concat]
    exact (List.prefix_concat_iff.1 hfront).resolve_left hne

theorem Writable.clear (h : tree.Writable shown location) : tree.Clear location := by
  intro front hfront hne inner hinner
  exact isDirectory_of_checkParent h.parent (prefix_dropLast_of_ne hfront hne) hinner

theorem near_of_checkParent (h : checkParent tree shown location = .ok ()) :
    isTooFar (shown location) = false := by
  unfold checkParent at h
  split at h
  · cases h
  · next hnear => exact Bool.eq_false_iff.2 hnear

theorem checkParent_of_directory (hnear : isTooFar (shown location) = false)
    (h : (tree.at? location).map kind = some .directory) :
    checkParent tree shown location = .ok () := by
  obtain ⟨found, hfound, hkind⟩ := Option.map_eq_some_iff.1 h
  rw [checkParent, if_neg (by simp [hnear]), hfound]
  cases found with
  | directory entries => rfl
  | file => cases hkind
  | link => cases hkind
  | pipe => cases hkind

/-- A file can be written where one has just been written. -/
theorem Writable.put (h : tree.Writable shown location) (content : List UInt8) :
    (Tree.put (.file content) location tree).Writable shown location := by
  have hhere : (Tree.put (.file content) location tree).at? location = some (.file content) :=
    at?_put_self h.clear
  refine ⟨checkParent_of_directory (near_of_checkParent h.parent) ?_, h.name, h.near, ?_, ?_⟩
  · exact kind_at?_put_of_clear h.clear (List.dropLast_prefix location) (dropLast_ne_self h.ne_nil)
  · intro entries
    rw [hhere]
    exact nofun
  · rw [hhere]
    exact nofun

/-- **A write that succeeds makes the way to its file**, and nothing else changes. -/
theorem makesWay_of_write (h : tree.write directory path content = .ok written) :
    tree.MakesWay written.location written.tree := by
  obtain ⟨-, shown, hwriteAt⟩ := exists_writeAt_of_write h
  have hwritable : tree.Writable shown written.location := writable_of_writeAt hwriteAt
  rw [(saves_of_writeAt hwriteAt).1]
  exact makesWay_put hwritable.clear hwritable.notDirectory

/-- Where all links can be followed, a write is one at the location that is reached. -/
theorem write_of_reached (hnull : holdsNull path = false)
    (hspot : tree.resolve directory path = .reached spot) :
    tree.write directory path content =
      tree.writeNamed spot.location locationText spot.location content := by
  rw [write, if_neg (by simp [hnull]), hspot]

/-- There is no link on the way to a directory. -/
theorem unlinked_of_directory {entries : List (String × Tree)}
    (h : tree.at? location = some (.directory entries)) : tree.Unlinked location := by
  intro front hfront _ target hlink
  obtain ⟨rest, rfl⟩ := hfront
  cases isDirectory_of_at?_append hlink h rfl

/-- The same write once more changes nothing, if all links can be followed. -/
theorem write_again (hspot : tree.resolve directory path = .reached spot)
    (hunlinked : tree.Unlinked spot.location)
    (h : tree.write directory path content = .ok written) :
    written = ⟨locationText spot.location, spot.location, written.tree⟩ ∧
      written.tree.write directory path content = .ok written := by
  have hnull : holdsNull path = false := by
    cases hnull : holdsNull path with
    | false => rfl
    | true =>
        rw [write, if_pos hnull] at h
        cases h
  rw [write_of_reached hnull hspot] at h
  obtain ⟨after, hwriteAt, rfl⟩ := writeNamed_eq_ok_iff.1 h
  have hwritable : tree.Writable locationText spot.location := writable_of_writeAt hwriteAt
  obtain ⟨rfl, -⟩ := saves_of_writeAt hwriteAt
  have hsame : tree.SameLinks (put (.file content) spot.location tree) :=
    (makesWay_put hwritable.clear hwritable.notDirectory).sameLinks (at?_put_self hwritable.clear)
      (hunlinked spot.location List.prefix_rfl hwritable.ne_nil)
  obtain ⟨reached, hreached, hlocation⟩ := reached_congr hsame hspot
  refine ⟨rfl, ?_⟩
  rw [write_of_reached hnull hreached, hlocation]
  refine writeNamed_eq_ok_iff.2 ⟨_, (hwritable.put content).writeAt content, ?_⟩
  rw [put_put]

/-! ### A write that fails -/

/-- Why a file cannot be written at the location of a path, other than names that are too long. -/
inductive Refuses (tree : Tree) (path : Path) (location : Location) :
    WriteError → Prop
  | null : holdsNull path = true → Refuses tree path location (.crash .nullInPath)
  | top : location = [] → Refuses tree path location (.isDirectory (locationText location))
  | directory {entries : List (String × Tree)} :
      tree.at? location = some (.directory entries) →
      Refuses tree path location (.isDirectory (locationText location))
  | parent {found : Tree} : tree.at? location.dropLast = some found → found.isDirectory = false →
      Refuses tree path location (.fileExists (locationText location.dropLast))
  | ancestor {front : Location} {found : Tree} : front <+: location.dropLast →
      front ≠ location.dropLast → tree.at? front = some found → found.isDirectory = false →
      Refuses tree path location (.notDirectory (locationText location.dropLast))

/-- A name on the way to a location is too long, or the way itself. -/
def TooLong (location : Location) : Prop :=
  ∃ front, front <+: location ∧
    (front.getLast?.any isTooLong = true ∨ isTooFar (locationText front) = true)

/-- A write has failed since something on the way is too long.  Directories have been made on the
way, if anything has changed. -/
structure FallsShort (tree : Tree) (location : Location) (failure : WriteFailure) :
    Prop where
  tooLong : TooLong location
  error_eq : ∃ front, front <+: location ∧ failure.error = .nameTooLong (locationText front)
  makesWay : tree.MakesWay location failure.tree
  target : failure.tree.at? location = tree.at? location

theorem FallsShort.of_makeDirectory (hlong : TooLong location) (hfront : front <+: location)
    (hplace : place <+: location) (hne : place ≠ location) :
    FallsShort tree location
      ⟨.nameTooLong (locationText front), makeDirectory place tree⟩ := by
  obtain ⟨hmakes, htarget⟩ := makesWay_makeDirectory tree hplace hne
  exact ⟨hlong, ⟨front, hfront, rfl⟩, hmakes, htarget⟩

theorem FallsShort.of_unchanged (hlong : TooLong location) (hfront : front <+: location) :
    FallsShort tree location ⟨.nameTooLong (locationText front), tree⟩ :=
  ⟨hlong, ⟨front, hfront, rfl⟩, .refl tree location, rfl⟩

/-- Before the first missing location on the way nothing is missing. -/
theorem isSome_of_firstMissing? {missing : Location}
    (h : firstMissing? tree location = some missing) (hfront : front <+: missing)
    (hne : front ≠ missing) : (tree.at? front).isSome = true := by
  obtain ⟨-, place, hplace, hmissing, hbefore⟩ := List.find?_eq_some_iff_getElem.1 h
  have hget (count : Nat) (hcount : count < (waypoints location).length) :
      (waypoints location)[count] = location.take count := by
    simp [waypoints]
  rw [hget] at hmissing
  have hlt : front.length < place := by
    have hle := hfront.length_le
    have hlength : front.length ≠ missing.length := fun heq => hne (hfront.eq_of_length heq)
    rw [← hmissing, List.length_take] at hle hlength
    omega
  have hfound := hbefore front.length hlt
  rw [hget, ← List.prefix_iff_eq_take.1 (hfront.trans (hmissing ▸ List.take_prefix _ _))] at hfound
  simpa using hfound

/-- If the directory of a file is not there and cannot be made, the write is refused or falls
short. -/
theorem refuses_or_fallsShort_of_checkParent_error (path : Path) (hne : location ≠ [])
    (h : checkParent tree locationText location.dropLast = .error failure) :
    Refuses tree path location failure.error ∧ failure.tree = tree ∨
      FallsShort tree location failure := by
  have habove {place : Location} (hplace : place <+: location.dropLast) :
      place <+: location ∧ place ≠ location := by
    refine ⟨hplace.trans (List.dropLast_prefix location), ?_⟩
    rintro rfl
    exact dropLast_ne_self hne (hplace.eq_of_length_le (by simp)).symm
  unfold checkParent at h
  split at h
  · next hfar =>
      cases h
      have hparent : location.dropLast <+: location := List.dropLast_prefix location
      exact Or.inr (.of_unchanged ⟨_, hparent, Or.inr hfar⟩ hparent)
  · split at h
    · next found hfound =>
        split at h
        · cases h
        · next hleaf =>
            cases h
            exact Or.inl ⟨.parent hfound (by simpa using hleaf), rfl⟩
    · next hnone =>
        split at h
        · cases h
        · next missing hmissing =>
            split at h
            · split at h
              · next long hlong =>
                  cases h
                  have hmem := List.mem_of_mem_filter (List.mem_of_find?_eq_some hlong)
                  have hway : long <+: location.dropLast := mem_waypoints_iff.1 hmem
                  obtain ⟨hfront, -⟩ := habove hway
                  obtain ⟨hplace, hself⟩ := habove ((List.dropLast_prefix long).trans hway)
                  have hlast := List.find?_some hlong
                  have htooLong : TooLong location := ⟨long, hfront, Or.inl hlast⟩
                  refine Or.inr (.of_makeDirectory htooLong ?_ hplace hself)
                  split
                  · exact List.dropLast_prefix location
                  · exact hfront
              · cases h
            · next hleaf =>
                cases h
                obtain ⟨hway, habsent⟩ := missing_of_firstMissing? hmissing
                have hnonempty : missing ≠ [] := by
                  rintro rfl
                  rw [at?_nil] at habsent
                  cases habsent
                obtain ⟨found, hfound⟩ := Option.isSome_iff_exists.1 (isSome_of_firstMissing?
                  hmissing (List.dropLast_prefix missing) (dropLast_ne_self hnonempty))
                have hfront := (List.dropLast_prefix missing).trans hway
                refine Or.inl ⟨.ancestor hfront ?_ hfound ?_, rfl⟩
                · intro hsame
                  rw [hsame, hnone] at hfound
                  cases hfound
                · simpa [hfound] using hleaf

theorem refuses_or_fallsShort_of_writeAt_error (path : Path)
    (hpipe : tree.at? location ≠ some .pipe)
    (h : tree.writeAt locationText location content = .error failure) :
    Refuses tree path location failure.error ∧ failure.tree = tree ∨
      FallsShort tree location failure := by
  unfold writeAt at h
  split at h
  · next hlast =>
      cases h
      exact Or.inl ⟨.top (List.getLast?_eq_none_iff.1 hlast), rfl⟩
  · next name hlast =>
      have hne : location ≠ [] := by
        rintro rfl
        cases hlast
      split at h
      · next hparent =>
          cases h
          exact refuses_or_fallsShort_of_checkParent_error path hne hparent
      · split at h
        · next hlong =>
            cases h
            have htooLong : TooLong location := by
              refine ⟨location, List.prefix_rfl, ?_⟩
              simpa [hlast] using hlong
            exact Or.inr (.of_makeDirectory htooLong List.prefix_rfl
              (List.dropLast_prefix location) (dropLast_ne_self hne))
        · split at h
          · next entries hdirectory =>
              cases h
              exact Or.inl ⟨.directory hdirectory, rfl⟩
          · next hat => exact absurd hat hpipe
          · cases h

/-- **A write that fails** is refused and changes nothing, or it falls short, if all links can be
followed. -/
theorem refuses_or_fallsShort_of_write_error
    (hspot : tree.resolve directory path = .reached spot)
    (hpipe : tree.at? spot.location ≠ some .pipe)
    (h : tree.write directory path content = .error failure) :
    Refuses tree path spot.location failure.error ∧ failure.tree = tree ∨
      FallsShort tree spot.location failure := by
  cases hnull : holdsNull path with
  | true =>
      rw [write, if_pos hnull] at h
      cases h
      exact Or.inl ⟨.null hnull, rfl⟩
  | false =>
      rw [write_of_reached hnull hspot, writeNamed_eq_error_iff] at h
      exact refuses_or_fallsShort_of_writeAt_error path hpipe h

/-- If nothing but the last name is too long, the directory is made before the write fails. -/
theorem write_of_longName (hnull : holdsNull path = false)
    (hspot : tree.resolve directory path = .reached spot)
    (hlocation : spot.location = place ++ [name])
    (hparent : checkParent tree locationText place = .ok ()) (hlong : isTooLong name = true) :
    tree.write directory path content =
      .error ⟨.nameTooLong (locationText (place ++ [name])), makeDirectory place tree⟩ := by
  rw [write_of_reached hnull hspot, writeNamed_eq_error_iff, hlocation]
  simp [writeAt, hparent, hlong]

end LineLint.Tree
