/-
**Writing a file changes no other file.**

A file is written at the location that its path stands for.  Everything on the way there is a
directory or is made one, and there is no directory at the location itself; so no file can be lost,
and the file is the only one that is new or has another content.  A write that fails may leave new
directories, but changes no file.

Main definitions:

* `LineLint.Tree.Clear` — whatever is on the way to a location is a directory;
* `LineLint.Tree.Saves` — **a tree differs from another one in one file at most**;
* `LineLint.Tree.SameFiles` — two trees have the same files.

Main results:

* `LineLint.Tree.at?_put_self`, `LineLint.Tree.at?_put_iff_of_ne` — what is at a location after
  something was put there, or elsewhere;
* `LineLint.Tree.mem_files_iff` — the files of a tree are what its locations hold;
* `LineLint.Tree.saves_of_write` — **a write that succeeds saves one file**;
* `LineLint.Tree.sameFiles_of_write_error` — **a write that fails changes no file**;
* `LineLint.Tree.Saves.changes_cases`, `LineLint.Tree.SameFiles.changes_eq_nil` — the files that
  have changed.
-/

import LineLint.Proofs.Tree.Names
import Mathlib.Data.List.Nodup

set_option relaxedAutoImplicit false
set_option autoImplicit false

namespace LineLint

namespace Tree

variable {tree before after new : Tree} {location : Location} {name other : String}
  {content bytes : List UInt8}

/-! ### Entries -/

theorem lookup_change_self (name : String) (f : Option Tree → Tree)
    (entries : List (String × Tree)) :
    (change name f entries).lookup name = some (f (entries.lookup name)) := by
  induction entries with
  | nil => simp [change]
  | cons entry entries ih =>
      obtain ⟨key, sub⟩ := entry
      by_cases hkey : key = name
      · simp [change, hkey]
      · have hne : (name == key) = false := by simpa using Ne.symm hkey
        simp [change, hkey, List.lookup_cons, hne, ih]

theorem lookup_change_of_ne (h : other ≠ name) (f : Option Tree → Tree)
    (entries : List (String × Tree)) :
    (change name f entries).lookup other = entries.lookup other := by
  have hother : (other == name) = false := by simpa using h
  induction entries with
  | nil => simp [change, List.lookup_cons, hother]
  | cons entry entries ih =>
      obtain ⟨key, sub⟩ := entry
      by_cases hkey : key = name
      · simp [change, hkey, List.lookup_cons, hother]
      · simp [change, hkey, List.lookup_cons, ih]

theorem map_fst_change (name : String) (f : Option Tree → Tree) (entries : List (String × Tree)) :
    (change name f entries).map Prod.fst =
      if name ∈ entries.map Prod.fst then entries.map Prod.fst
      else entries.map Prod.fst ++ [name] := by
  induction entries with
  | nil => simp [change]
  | cons entry entries ih =>
      by_cases hkey : entry.1 = name
      · simp [change, hkey]
      · have hmem : name ∈ (entry :: entries).map Prod.fst ↔ name ∈ entries.map Prod.fst := by
          simp [Ne.symm hkey]
        rw [change, if_neg hkey, List.map_cons, ih]
        split
        · next hin => rw [if_pos (hmem.2 hin), List.map_cons]
        · next hout => rw [if_neg (mt hmem.1 hout), List.map_cons, List.cons_append]

theorem mem_change {f : Option Tree → Tree} {entries : List (String × Tree)}
    {entry : String × Tree} (h : entry ∈ change name f entries) :
    entry ∈ entries ∨ entry = (name, f (entries.lookup name)) := by
  induction entries with
  | nil => exact Or.inr (by simpa [change] using h)
  | cons first entries ih =>
      obtain ⟨key, sub⟩ := first
      by_cases hkey : key = name
      · rw [change, if_pos hkey] at h
        rcases List.mem_cons.1 h with rfl | h
        · exact Or.inr (by simp [hkey])
        · exact Or.inl (List.mem_cons_of_mem _ h)
      · have hne : (name == key) = false := by simpa using Ne.symm hkey
        rw [change, if_neg hkey] at h
        rcases List.mem_cons.1 h with rfl | h
        · exact Or.inl List.mem_cons_self
        · rw [List.lookup_cons, hne]
          exact (ih h).imp_left (List.mem_cons_of_mem _)

/-! ### Putting something somewhere -/

theorem exists_entries_of_isDirectory (h : tree.isDirectory = true) :
    ∃ entries, tree = .directory entries := by
  cases tree with
  | directory entries => exact ⟨entries, rfl⟩
  | file => cases h
  | link => cases h
  | pipe => cases h

/-- Below anything but a directory there is nothing. -/
theorem at?_eq_some_iff_of_leaf (h : tree.isDirectory = false) {place : Location} {found : Tree} :
    tree.at? place = some found ↔ place = [] ∧ tree = found := by
  cases place with
  | nil => simp
  | cons name rest =>
      rw [at?_cons]
      cases tree with
      | directory entries => cases h
      | file => simp [ entry?]
      | link => simp [ entry?]
      | pipe => simp [ entry?]

/-- Whatever is on the way to a location, before its last name, is a directory. -/
def Clear (tree : Tree) (location : Location) : Prop :=
  ∀ front, front <+: location → front ≠ location → ∀ inner, tree.at? front = some inner →
    inner.isDirectory = true

theorem Clear.exists_entries {rest : Location} (h : tree.Clear (name :: rest)) :
    ∃ entries, tree = .directory entries :=
  exists_entries_of_isDirectory (h [] List.nil_prefix (by simp) tree (at?_nil tree))

theorem clear_empty (location : Location) : (Tree.directory []).Clear location := by
  intro front _ _ inner hinner
  cases front with
  | nil =>
      rw [at?_nil] at hinner
      cases hinner
      rfl
  | cons name rest =>
      rw [at?_cons] at hinner
      cases hinner

/-- The way on from an entry of the first name, or from an empty directory, is clear as well. -/
theorem Clear.tail {entries : List (String × Tree)} {rest : Location}
    (h : (Tree.directory entries).Clear (name :: rest)) :
    ((entries.lookup name).getD (.directory [])).Clear rest := by
  cases hentry : entries.lookup name with
  | none => exact clear_empty rest
  | some sub =>
      intro front hfront hne inner hinner
      refine h (name :: front) (List.cons_prefix_cons.2 ⟨rfl, hfront⟩) (by simpa using hne) inner ?_
      rw [at?_cons, entry?, hentry]
      exact hinner

theorem put_cons (new : Tree) (name : String) (rest : Location) (entries : List (String × Tree)) :
    put new (name :: rest) (.directory entries) =
      .directory (change name (fun old => put new rest (old.getD (.directory []))) entries) := by
  rw [put]

theorem put_cons_of_leaf (h : tree.isDirectory = false) (new : Tree) (name : String)
    (rest : Location) : put new (name :: rest) tree = tree := by
  rw [put]
  rintro entries rfl
  cases h

theorem at?_put_cons_self (new : Tree) (name : String) (rest below : Location)
    (entries : List (String × Tree)) :
    (put new (name :: rest) (.directory entries)).at? (name :: below) =
      (put new rest ((entries.lookup name).getD (.directory []))).at? below := by
  rw [put_cons, at?_cons, entry?, lookup_change_self]
  rfl

theorem at?_put_cons_of_ne (h : other ≠ name) (new : Tree) (rest below : Location)
    (entries : List (String × Tree)) :
    (put new (name :: rest) (.directory entries)).at? (other :: below) =
      (Tree.directory entries).at? (other :: below) := by
  rw [put_cons, at?_cons, at?_cons, entry?, entry?, lookup_change_of_ne h]

/-- What is put at a location is there. -/
theorem at?_put_self (h : tree.Clear location) :
    (put new location tree).at? location = some new := by
  induction location generalizing tree with
  | nil => rw [put, at?_nil]
  | cons name rest ih =>
      obtain ⟨entries, rfl⟩ := h.exists_entries
      rw [at?_put_cons_self]
      exact ih h.tail

theorem at?_put_self_or_none (new : Tree) (location : Location) (tree : Tree) :
    (put new location tree).at? location = some new ∨
      (put new location tree).at? location = none := by
  induction location generalizing tree with
  | nil => exact Or.inl (by rw [put, at?_nil])
  | cons name rest ih =>
      cases htree : tree.isDirectory with
      | true =>
          obtain ⟨entries, rfl⟩ := exists_entries_of_isDirectory htree
          rw [at?_put_cons_self]
          exact ih _
      | false =>
          rw [put_cons_of_leaf htree]
          refine Or.inr (Option.eq_none_iff_forall_ne_some.2 fun found hfound => ?_)
          exact absurd ((at?_eq_some_iff_of_leaf htree).1 hfound).1 (by simp)

theorem at?_empty_ne_file (location : Location) (content : List UInt8) :
    (Tree.directory []).at? location ≠ some (.file content) := by
  cases location with
  | nil =>
      rw [at?_nil]
      exact nofun
  | cons name rest =>
      rw [at?_cons]
      exact nofun

/-- No files are below a location, other than at the location itself. -/
def Bare (tree : Tree) (location : Location) : Prop :=
  ∀ below content, below ≠ [] → tree.at? (location ++ below) ≠ some (.file content)

theorem bare_nil_of_leaf (h : tree.isDirectory = false) : tree.Bare [] := by
  intro below content hbelow hfile
  exact hbelow ((at?_eq_some_iff_of_leaf h).1 hfile).1

theorem bare_empty (location : Location) : (Tree.directory []).Bare location :=
  fun _ content _ => at?_empty_ne_file _ content

/-- The files at other locations are the same as before, if there are none below the location,
neither before nor in what is put there. -/
theorem at?_put_iff_of_ne (hnew : new.Bare []) (hbare : tree.Bare location) {place : Location}
    (hplace : place ≠ location) :
    (put new location tree).at? place = some (.file content) ↔
      tree.at? place = some (.file content) := by
  induction location generalizing tree place with
  | nil => exact iff_of_false (hnew place content hplace) (hbare place content hplace)
  | cons name rest ih =>
      cases htree : tree.isDirectory with
      | false => rw [put_cons_of_leaf htree]
      | true =>
          obtain ⟨entries, rfl⟩ := exists_entries_of_isDirectory htree
          cases place with
          | nil =>
              rw [put_cons, at?_nil, at?_nil]
              exact ⟨nofun, nofun⟩
          | cons other below =>
              by_cases hother : other = name
              · subst hother
                have hbelow : below ≠ rest := by simpa using hplace
                rw [at?_put_cons_self]
                cases hentry : entries.lookup other with
                | some sub =>
                    have hsub (more : Location) :
                        (Tree.directory entries).at? (other :: more) = sub.at? more := by
                      rw [at?_cons, entry?, hentry]
                      rfl
                    rw [hsub]
                    exact ih (fun more content hmore => hsub (rest ++ more) ▸
                      hbare more content hmore) hbelow
                | none =>
                    -- the directories that are made on the way hold nothing else
                    refine (ih (bare_empty rest) hbelow).trans ?_
                    rw [at?_cons, entry?, hentry]
                    exact ⟨fun hfile => absurd hfile (at?_empty_ne_file _ _), nofun⟩
              · rw [at?_put_cons_of_ne hother]

theorem wellFormed_put (hnew : new.wellFormed = true) (h : tree.wellFormed = true)
    (hnames : AreNames location) :
    (put new location tree).wellFormed = true := by
  induction location generalizing tree with
  | nil => rwa [put]
  | cons name rest ih =>
      obtain ⟨hname, hrest⟩ := List.forall_mem_cons.1 hnames
      cases htree : tree.isDirectory with
      | false => rwa [put_cons_of_leaf htree]
      | true =>
          obtain ⟨entries, rfl⟩ := exists_entries_of_isDirectory htree
          obtain ⟨hnodup, hentries⟩ := entriesWellFormed_iff.1 h
          have hsub : ((entries.lookup name).getD (.directory [])).wellFormed = true := by
            cases hentry : entries.lookup name with
            | none => rfl
            | some sub => exact (hentries _ (mem_of_lookup_entries hentry)).2
          rw [put_cons, wellFormed, entriesWellFormed_iff, map_fst_change]
          refine ⟨?_, fun entry hentry => ?_⟩
          · split
            · exact hnodup
            · next hnew =>
                refine List.nodup_append.2 ⟨hnodup, by simp, fun key hkey last hlast => ?_⟩
                rw [List.mem_singleton.1 hlast]
                rintro rfl
                exact hnew hkey
          · rcases mem_change hentry with hentry | rfl
            · exact hentries entry hentry
            · exact ⟨hname, ih hsub hrest⟩

/-! ### All files -/

theorem entriesFiles_eq_flatMap (here : Location) (entries : List (String × Tree)) :
    entriesFiles here entries =
      entries.flatMap (fun entry => files (here ++ [entry.1]) entry.2) := by
  induction entries with
  | nil => rw [entriesFiles, List.flatMap_nil]
  | cons entry entries ih => rw [entriesFiles, entryFiles, ih, List.flatMap_cons]

/-- The files of a tree are what its locations hold. -/
theorem mem_files_iff (h : tree.wellFormed = true) {here place : Location} :
    (place, content) ∈ tree.files here ↔
      ∃ below, place = here ++ below ∧ tree.at? below = some (.file content) := by
  induction tree using inductionOn generalizing here with
  | file bytes =>
      have hleaf : (Tree.file bytes).isDirectory = false := rfl
      simp [files, at?_eq_some_iff_of_leaf hleaf, @eq_comm _ content]
  | link target =>
      have hleaf : (Tree.link target).isDirectory = false := rfl
      simp [files, at?_eq_some_iff_of_leaf hleaf]
  | pipe =>
      have hleaf : Tree.pipe.isDirectory = false := rfl
      simp [files, at?_eq_some_iff_of_leaf hleaf]
  | directory entries ih =>
      obtain ⟨hnodup, hentries⟩ := entriesWellFormed_iff.1 h
      rw [files, entriesFiles_eq_flatMap, List.mem_flatMap]
      constructor
      · rintro ⟨⟨name, sub⟩, hentry, hfile⟩
        obtain ⟨below, rfl, hat⟩ := (ih _ hentry (hentries _ hentry).2).1 hfile
        refine ⟨name :: below, by simp, ?_⟩
        rw [at?_cons, entry?, lookup_entries_of_mem hnodup hentry]
        exact hat
      · rintro ⟨below, rfl, hat⟩
        cases below with
        | nil =>
            rw [at?_nil] at hat
            cases hat
        | cons name rest =>
            rw [at?_cons] at hat
            obtain ⟨sub, hsub, hat⟩ := Option.bind_eq_some_iff.1 hat
            have hentry : (name, sub) ∈ entries := mem_of_lookup_entries hsub
            exact ⟨_, hentry, (ih _ hentry (hentries _ hentry).2).2 ⟨rest, by simp, hat⟩⟩

/-- No location holds two files. -/
theorem nodup_files (h : tree.wellFormed = true) (here : Location) :
    ((tree.files here).map Prod.fst).Nodup := by
  induction tree using inductionOn generalizing here with
  | file bytes => simp [files]
  | link target => simp [files]
  | pipe => simp [files]
  | directory entries ih =>
      obtain ⟨hnodup, hentries⟩ := entriesWellFormed_iff.1 h
      rw [files, entriesFiles_eq_flatMap, List.map_flatMap, List.nodup_flatMap]
      refine ⟨fun entry hentry => ih entry hentry (hentries entry hentry).2 _, ?_⟩
      rw [List.nodup_iff_pairwise_ne, List.pairwise_map] at hnodup
      refine hnodup.imp_of_mem fun {a b} ha hb hne place hplace hplace' => ?_
      obtain ⟨⟨place, content⟩, hfile, rfl⟩ := List.mem_map.1 hplace
      obtain ⟨⟨place', content'⟩, hfile', heq⟩ := List.mem_map.1 hplace'
      obtain ⟨below, rfl, -⟩ := (mem_files_iff (hentries a ha).2).1 hfile
      obtain ⟨below', rfl, -⟩ := (mem_files_iff (hentries b hb).2).1 hfile'
      -- the names right behind `here` differ
      simp only [List.append_assoc, List.append_cancel_left_eq, List.singleton_append,
        List.cons.injEq] at heq
      exact hne heq.1.symm

theorem lookup_files_iff (h : tree.wellFormed = true) {place : Location} :
    (tree.files []).lookup place = some content ↔ tree.at? place = some (.file content) := by
  have hmem : (place, content) ∈ tree.files [] ↔ tree.at? place = some (.file content) := by
    rw [mem_files_iff h]
    simp
  rw [← hmem]
  exact ⟨mem_of_lookup_entries, lookup_entries_of_mem (nodup_files h [])⟩

/-- A file has changed if it is there, and was not there with this content. -/
theorem mem_changes_iff (hbefore : before.wellFormed = true) (hafter : after.wellFormed = true)
    {place : Location} :
    (place, content) ∈ before.changes after ↔
      after.at? place = some (.file content) ∧ before.at? place ≠ some (.file content) := by
  rw [changes, List.mem_filter, mem_files_iff hafter, bne_iff_ne, Ne, lookup_files_iff hbefore]
  simp

/-- Two trees have the same files with the same contents. -/
def SameFiles (before after : Tree) : Prop :=
  ∀ place content, after.at? place = some (.file content) ↔ before.at? place = some (.file content)

theorem SameFiles.refl (tree : Tree) : tree.SameFiles tree := fun _ _ => Iff.rfl

theorem SameFiles.changes_eq_nil (h : before.SameFiles after) (hbefore : before.wellFormed = true)
    (hafter : after.wellFormed = true) : before.changes after = [] := by
  refine List.eq_nil_iff_forall_not_mem.2 fun entry hentry => ?_
  obtain ⟨hat, hne⟩ := (mem_changes_iff hbefore hafter).1 hentry
  exact hne ((h entry.1 entry.2).1 hat)

/-- A tree is another one with a file at a location, and all other files as they were. -/
structure Saves (before : Tree) (location : Location) (content : List UInt8) (after : Tree) :
    Prop where
  at_location : after.at? location = some (.file content)
  elsewhere : ∀ place, place ≠ location → ∀ bytes,
    after.at? place = some (.file bytes) ↔ before.at? place = some (.file bytes)

/-- The file that was saved is the only one that has changed, or it had its content before. -/
theorem Saves.changes_cases (h : before.Saves location content after)
    (hbefore : before.wellFormed = true) (hafter : after.wellFormed = true) :
    before.changes after = [(location, content)] ∨
      before.at? location = some (.file content) ∧ before.changes after = [] := by
  have hmem (entry : Location × List UInt8) : entry ∈ before.changes after ↔
      entry = (location, content) ∧ before.at? location ≠ some (.file content) := by
    obtain ⟨place, bytes⟩ := entry
    rw [mem_changes_iff hbefore hafter]
    by_cases hplace : place = location
    · subst hplace
      rw [h.at_location]
      constructor
      · rintro ⟨hbytes, hnew⟩
        cases hbytes
        exact ⟨rfl, hnew⟩
      · rintro ⟨hentry, hnew⟩
        cases hentry
        exact ⟨rfl, hnew⟩
    · rw [h.elsewhere place hplace]
      simp [hplace]
  by_cases hsame : before.at? location = some (.file content)
  · refine Or.inr ⟨hsame, List.eq_nil_iff_forall_not_mem.2 fun entry hentry => ?_⟩
    exact ((hmem entry).1 hentry).2 hsame
  · have hnodup : (before.changes after).Nodup :=
      (List.Nodup.of_map _ (nodup_files hafter [])).filter _
    refine Or.inl (List.perm_singleton.1 ((List.perm_ext_iff_of_nodup hnodup (by simp)).2 ?_))
    intro entry
    simp [hmem, hsame]

/-! ### Writing -/

/-- What is on the way to something below it is a directory. -/
theorem isDirectory_of_at?_append {front rest : Location} {inner found : Tree}
    (hinner : tree.at? front = some inner) (hfound : tree.at? (front ++ rest) = some found)
    (hdirectory : found.isDirectory = true) : inner.isDirectory = true := by
  rw [at?_append, hinner] at hfound
  by_contra hleaf
  obtain ⟨-, rfl⟩ := (at?_eq_some_iff_of_leaf (by simpa using hleaf)).1 hfound
  exact hleaf hdirectory

theorem mem_waypoints_iff {place : Location} : place ∈ waypoints location ↔ place <+: location := by
  rw [waypoints, List.mem_map, List.prefix_iff_eq_take]
  constructor
  · rintro ⟨count, -, rfl⟩
    rw [List.length_take, ← List.take_eq_take_min]
  · intro h
    refine ⟨place.length, ?_, h.symm⟩
    rw [List.mem_range, h, List.length_take]
    omega

theorem firstMissing?_ne_none (h : tree.at? location = none) :
    firstMissing? tree location ≠ none := by
  intro hnone
  have hsome := List.find?_eq_none.1 hnone location (mem_waypoints_iff.2 List.prefix_rfl)
  simp [h] at hsome

theorem missing_of_firstMissing? {missing : Location}
    (h : firstMissing? tree location = some missing) :
    missing <+: location ∧ tree.at? missing = none :=
  ⟨mem_waypoints_iff.1 (List.mem_of_find?_eq_some h), by simpa using List.find?_some h⟩

/-- If a directory is there or can be made, then whatever is on the way to it is a directory. -/
theorem isDirectory_of_checkParent {shown : Location → String} {parent front : Location}
    {inner : Tree}
    (h : checkParent tree shown parent = .ok ()) (hfront : front <+: parent)
    (hinner : tree.at? front = some inner) : inner.isDirectory = true := by
  unfold checkParent at h
  split at h
  · cases h
  · split at h
    · next found hfound =>
        split at h
        · next hdirectory =>
            obtain ⟨rest, rfl⟩ := hfront
            exact isDirectory_of_at?_append hinner hfound hdirectory
        · cases h
    · next hnone =>
        split at h
        · next hmissing => exact absurd hmissing (firstMissing?_ne_none hnone)
        · next missing hmissing =>
            obtain ⟨hbefore, habsent⟩ := missing_of_firstMissing? hmissing
            split at h
            · next hdirectory =>
                rcases List.prefix_or_prefix_of_prefix hbefore hfront with
                  ⟨more, rfl⟩ | ⟨more, rfl⟩
                · -- nothing can be behind what is missing
                  rw [at?_append, habsent] at hinner
                  cases hinner
                · have hne : more ≠ [] := by
                    rintro rfl
                    rw [List.append_nil, hinner] at habsent
                    cases habsent
                  rw [List.dropLast_append_of_ne_nil hne, Option.any_eq_true] at hdirectory
                  obtain ⟨found, hfound, hdirectory⟩ := hdirectory
                  exact isDirectory_of_at?_append hinner hfound hdirectory
            · cases h

theorem saves_of_writeAt {shown : Location → String}
    (h : tree.writeAt shown location content = .ok after) :
    after = put (.file content) location tree ∧ tree.Saves location content after := by
  unfold writeAt at h
  split at h
  · cases h
  · next name hname =>
      obtain ⟨parent, rfl⟩ := List.getLast?_eq_some_iff.1 hname
      rw [List.dropLast_concat] at h
      split at h
      · cases h
      · next hparent =>
          split at h
          · cases h
          · split at h
            · cases h
            · cases h
            · next hdirectory hpipe =>
                cases h
                have hclear : tree.Clear (parent ++ [name]) := by
                  intro front hfront hne inner hinner
                  have hfront : front <+: parent :=
                    (List.prefix_concat_iff.1 hfront).resolve_left hne
                  exact isDirectory_of_checkParent hparent hfront hinner
                have hbare : tree.Bare (parent ++ [name]) := by
                  intro below bytes hbelow hfile
                  rw [at?_append] at hfile
                  obtain ⟨inner, hinner, hfile⟩ := Option.bind_eq_some_iff.1 hfile
                  cases hleaf : inner.isDirectory with
                  | false => exact bare_nil_of_leaf hleaf below bytes hbelow hfile
                  | true =>
                      obtain ⟨entries, rfl⟩ := exists_entries_of_isDirectory hleaf
                      exact hdirectory entries hinner
                exact ⟨rfl, at?_put_self hclear, fun place hplace bytes =>
                  at?_put_iff_of_ne (bare_nil_of_leaf rfl) hbare hplace⟩

theorem writeNamed_eq_ok_iff {names : Location} {shown : Location → String} {written : Written} :
    tree.writeNamed names shown location content = .ok written ↔
      ∃ after, tree.writeAt shown location content = .ok after ∧
        written = ⟨locationText names, location, after⟩ := by
  unfold writeNamed
  cases tree.writeAt shown location content with
  | error failure => simp
  | ok after => simp [eq_comm]

/-- A write that succeeds is one at the location that the path stands for. -/
theorem exists_writeAt_of_write {directory : Location} {path : Path} {written : Written}
    (h : tree.write directory path content = .ok written) :
    tree.StandsFor directory path written.location ∧ ∃ shown,
      tree.writeAt shown written.location content = .ok written.tree := by
  unfold write at h
  split at h
  · cases h
  · split at h
    · next spot hspot =>
        obtain ⟨after, hafter, rfl⟩ := writeNamed_eq_ok_iff.1 h
        exact ⟨standsFor_of_reached hspot, _, hafter⟩
    · next names hnames =>
        split at h
        · cases h
        · next hround =>
            split at h
            · cases h
            · next place htarget =>
                obtain ⟨after, hafter, rfl⟩ := writeNamed_eq_ok_iff.1 h
                exact ⟨Or.inr ⟨names, hnames, Bool.eq_false_iff.2 hround, htarget⟩, _, hafter⟩

/-- **A write that succeeds saves one file**, at the location that its path stands for. -/
theorem saves_of_write {directory : Location} {path : Path} {written : Written}
    (h : tree.write directory path content = .ok written) :
    tree.StandsFor directory path written.location ∧
      written.tree = put (.file content) written.location tree ∧
      tree.Saves written.location content written.tree := by
  obtain ⟨hstands, shown, hwriteAt⟩ := exists_writeAt_of_write h
  exact ⟨hstands, saves_of_writeAt hwriteAt⟩

/-- A write keeps the tree well-formed. -/
theorem wellFormed_of_write {directory : Location} {path : Path} {written : Written}
    (hparts : Unslashed path.parts) (hdirectory : AreNames directory)
    (hwellFormed : tree.wellFormed = true)
    (h : tree.write directory path content = .ok written) : written.tree.wellFormed = true := by
  obtain ⟨hstands, htree, -⟩ := saves_of_write h
  have hfile : (Tree.file content).wellFormed = true := by rw [wellFormed]
  rw [htree]
  exact wellFormed_put hfile hwellFormed (hstands.areNames hwellFormed hdirectory hparts)

/-! ### Writing that fails -/

variable {failure : WriteFailure}

theorem makeDirectory_nil (tree : Tree) : makeDirectory [] tree = tree := by
  simp [makeDirectory]

/-- Making directories changes no files. -/
theorem sameFiles_makeDirectory (location : Location) (tree : Tree) :
    tree.SameFiles (makeDirectory location tree) := by
  intro place content
  unfold makeDirectory
  split
  · rfl
  · next hmissing =>
      have hnone : tree.at? location = none := by simpa using hmissing
      have hbare : tree.Bare location := by
        intro below bytes _ hfile
        rw [at?_append, hnone] at hfile
        cases hfile
      by_cases hplace : place = location
      · subst hplace
        rw [hnone]
        rcases at?_put_self_or_none (.directory []) place tree with h | h
        · simp [h]
        · rw [h]
      · exact at?_put_iff_of_ne (bare_empty []) hbare hplace

theorem wellFormed_makeDirectory (h : tree.wellFormed = true)
    (hnames : AreNames location) :
    (makeDirectory location tree).wellFormed = true := by
  unfold makeDirectory
  split
  · exact h
  · exact wellFormed_put rfl h hnames

theorem tree_of_checkParent_error {shown : Location → String} {parent : Location}
    (h : checkParent tree shown parent = .error failure) :
    ∃ place, place <+: parent ∧ failure.tree = makeDirectory place tree := by
  have hsame : ∃ place, place <+: parent ∧ tree = makeDirectory place tree :=
    ⟨[], List.nil_prefix, (makeDirectory_nil tree).symm⟩
  unfold checkParent at h
  split at h
  · cases h
    exact hsame
  · split at h
    · split at h
      · cases h
      · cases h
        exact hsame
    · split at h
      · cases h
      · split at h
        · split at h
          · next long hlong =>
              cases h
              have hmem := List.mem_of_mem_filter (List.mem_of_find?_eq_some hlong)
              exact ⟨_, (List.dropLast_prefix long).trans (mem_waypoints_iff.1 hmem), rfl⟩
          · cases h
        · cases h
          exact hsame

theorem tree_of_writeAt_error {shown : Location → String}
    (h : tree.writeAt shown location content = .error failure) :
    ∃ place, place <+: location ∧ failure.tree = makeDirectory place tree := by
  have hsame : ∃ place, place <+: location ∧ tree = makeDirectory place tree :=
    ⟨[], List.nil_prefix, (makeDirectory_nil tree).symm⟩
  unfold writeAt at h
  split at h
  · cases h
    exact hsame
  · split at h
    · next hparent =>
        cases h
        obtain ⟨place, hplace, htree⟩ := tree_of_checkParent_error hparent
        exact ⟨place, hplace.trans (List.dropLast_prefix location), htree⟩
    · split at h
      · cases h
        exact ⟨_, List.dropLast_prefix location, rfl⟩
      · split at h
        · cases h
          exact hsame
        · cases h
          exact hsame
        · cases h

theorem writeNamed_eq_error_iff {names : Location} {shown : Location → String} :
    tree.writeNamed names shown location content = .error failure ↔
      tree.writeAt shown location content = .error failure := by
  unfold writeNamed
  cases tree.writeAt shown location content with
  | error failure => simp
  | ok after => simp

/-- **A write that fails leaves directories at most**, on the way to the location of its path. -/
theorem tree_of_write_error {directory : Location} {path : Path}
    (h : tree.write directory path content = .error failure) :
    failure.tree = tree ∨ ∃ location place, tree.StandsFor directory path location ∧
      place <+: location ∧ failure.tree = makeDirectory place tree := by
  unfold write at h
  split at h
  · cases h
    exact Or.inl rfl
  · split at h
    · next spot hspot =>
        obtain ⟨place, hplace, htree⟩ := tree_of_writeAt_error (writeNamed_eq_error_iff.1 h)
        exact Or.inr ⟨_, place, standsFor_of_reached hspot, hplace, htree⟩
    · next names hnames =>
        split at h
        · cases h
          exact Or.inl rfl
        · next hround =>
            split at h
            · cases h
              exact Or.inl rfl
            · next location htarget =>
                obtain ⟨place, hplace, htree⟩ :=
                  tree_of_writeAt_error (writeNamed_eq_error_iff.1 h)
                have hstands : tree.StandsFor directory path location :=
                  Or.inr ⟨names, hnames, Bool.eq_false_iff.2 hround, htarget⟩
                exact Or.inr ⟨location, place, hstands, hplace, htree⟩

/-- A write that fails changes no file. -/
theorem sameFiles_of_write_error {directory : Location} {path : Path}
    (h : tree.write directory path content = .error failure) : tree.SameFiles failure.tree := by
  rcases tree_of_write_error h with htree | ⟨-, place, -, -, htree⟩
  · rw [htree]
    exact SameFiles.refl tree
  · rw [htree]
    exact sameFiles_makeDirectory place tree

theorem wellFormed_of_write_error {directory : Location} {path : Path}
    (hparts : Unslashed path.parts) (hdirectory : AreNames directory)
    (hwellFormed : tree.wellFormed = true)
    (h : tree.write directory path content = .error failure) :
    failure.tree.wellFormed = true := by
  rcases tree_of_write_error h with htree | ⟨location, place, hstands, hplace, htree⟩
  · rwa [htree]
  · rw [htree]
    refine wellFormed_makeDirectory hwellFormed fun name hname => ?_
    exact hstands.areNames hwellFormed hdirectory hparts name (hplace.subset hname)

end Tree

end LineLint
