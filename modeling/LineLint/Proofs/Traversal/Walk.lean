/-
**What a walk through a directory gives.**

A walk gives the text of every file that can be reached: down through directories that are no links,
past nothing that is excluded, and with nothing on the way that cannot be looked at, listed or read.
The texts come in the order of the lists of names that lead to them.

That order makes the texts a function of what can be reached.  So it does not matter in which order
the directories list their entries.

Main definitions:

* `LineLint.Path.below` — a path some components further;
* `LineLint.Traversal.Reached` — **a file that a walk reaches**;
* `LineLint.Traversal.Yields` — texts of certain files below a path, in order.

Main results:

* `LineLint.Traversal.yields_walk` — a walk gives the files that it reaches;
* `LineLint.Traversal.Yields.unique` — the files below a path decide their texts;
* `LineLint.Traversal.walk_yields_reached` — **a walk gives every file that it reaches, once, in
  order, and whatever the order of the listings**.
-/

import LineLint.Proofs.Tree.Alike
import LineLint.Traversal
import Mathlib

set_option relaxedAutoImplicit false
set_option autoImplicit false

namespace LineLint

/-! ### Paths -/

/-- A path some components further. -/
def Path.below (path : Path) (names : List String) : Path :=
  { path with parts := path.parts ++ names }

@[simp] theorem Path.below_nil (path : Path) : path.below [] = path := by
  simp [Path.below]

@[simp] theorem Path.below_cons (path : Path) (name : String) (names : List String) :
    path.below (name :: names) = (path.child name).below names := by
  simp [Path.below, Path.child]

/-- Names without slashes can be read off the path that they lead to. -/
theorem Path.text_below_inj {path : Path} {names names' : List String}
    (hne : names ≠ []) (hne' : names' ≠ [])
    (hnames : ∀ name ∈ names, '/' ∉ name.toList) (hnames' : ∀ name ∈ names', '/' ∉ name.toList)
    (h : (path.below names).text = (path.below names').text) : names = names' := by
  have htext (names : List String) (hne : names ≠ []) : (path.below names).text.toList =
      path.root.toList ++ Text.joinChars ['/'] ((path.parts ++ names).map String.toList) := by
    have hparts : (path.parts ++ names).isEmpty = false := by simp [hne]
    simp [Path.text, Path.below, hparts, Text.join]
  have hjoin : Text.joinChars ['/'] (names.map String.toList) =
      Text.joinChars ['/'] (names'.map String.toList) := by
    have hlist := congrArg String.toList h
    rw [htext names hne, htext names' hne', List.append_cancel_left_eq, List.map_append,
      List.map_append] at hlist
    -- what the path itself has in front is the same on both sides
    by_cases hempty : path.parts = []
    · simpa [hempty] using hlist
    · rw [Text.joinChars_append _ (by simpa using hempty) (by simpa using hne),
        Text.joinChars_append _ (by simpa using hempty) (by simpa using hne')] at hlist
      exact List.append_cancel_left hlist
  have hsplit := congrArg (Text.splitAt '/') hjoin
  rw [Text.splitAt_joinChars (by simpa using hne) (by simpa using hnames),
    Text.splitAt_joinChars (by simpa using hne') (by simpa using hnames')] at hsplit
  exact (List.map_inj_right fun _ _ => String.toList_inj.1).1 hsplit

namespace Traversal

variable {t : Traversal} {path : Path} {name : String} {names : List String} {content : List UInt8}

/-! ### The files that a walk reaches -/

/-- A path is not excluded, and can be looked at. -/
def Passes (t : Traversal) (path : Path) : Prop :=
  Glob.excludes t.excluded path = false ∧ path.text ∉ t.faults.stat

/-- The names lead from a directory to a file with the given content, by a way that a walk takes. -/
structure Reached (t : Traversal) (path : Path) (names : List String) (content : List UInt8) :
    Prop where
  ne_nil : names ≠ []
  /-- The names are such as entries can have. -/
  proper : ∀ name ∈ names, Tree.isName name = true
  /-- Nothing on the way is excluded or cannot be looked at. -/
  passes : ∀ front, front <+: names → front ≠ [] → t.Passes (path.below front)
  /-- Everything on the way is a directory, and no link. -/
  directories : ∀ front, front <+: names → front ≠ [] → front ≠ names →
    t.tree.IsDirectory t.directory (path.below front) ∧
      ¬t.tree.IsLink t.directory (path.below front)
  /-- The directories on the way, the first one included, can be listed. -/
  listed : ∀ front, front <+: names → front ≠ names → (path.below front).text ∉ t.faults.list
  file : t.tree.IsFile t.directory (path.below names) content
  readable : (path.below names).text ∉ t.faults.read

/-- The file is an entry of the directory itself. -/
theorem reached_singleton :
    t.Reached path [name] content ↔ path.text ∉ t.faults.list ∧ Tree.isName name = true ∧
      t.Passes (path.child name) ∧ t.tree.IsFile t.directory (path.child name) content ∧
      (path.child name).text ∉ t.faults.read := by
  constructor
  · intro h
    have hlisted := h.listed [] List.nil_prefix (by simp)
    have hpasses := h.passes [name] List.prefix_rfl (by simp)
    exact ⟨by simpa using hlisted, h.proper name (by simp), by simpa using hpasses,
      by simpa using h.file, by simpa using h.readable⟩
  · rintro ⟨hlisted, hname, hpasses, hfile, hreadable⟩
    have hfront : ∀ front, front <+: [name] → front = [] ∨ front = [name] := by
      intro front hfront
      rcases List.prefix_cons_iff.1 hfront with rfl | ⟨rest, rfl, hrest⟩
      · exact Or.inl rfl
      · rw [List.prefix_nil.1 hrest]
        exact Or.inr rfl
    refine ⟨by simp, by simpa using hname, fun front h hne => ?_,
      fun front h hne hne' => ?_, fun front h hne => ?_, by simpa using hfile,
      by simpa using hreadable⟩
    · rw [(hfront front h).resolve_left hne]
      simpa using hpasses
    · exact absurd (hfront front h) (by simp [hne, hne'])
    · rw [(hfront front h).resolve_right hne]
      simpa using hlisted

/-- The file is below an entry of the directory. -/
theorem reached_cons (hne : names ≠ []) :
    t.Reached path (name :: names) content ↔ path.text ∉ t.faults.list ∧ Tree.isName name = true ∧
      t.Passes (path.child name) ∧ t.tree.IsDirectory t.directory (path.child name) ∧
      ¬t.tree.IsLink t.directory (path.child name) ∧ t.Reached (path.child name) names content := by
  constructor
  · intro h
    have hlisted := h.listed [] List.nil_prefix (by simp)
    have hentry : [name] <+: name :: names := List.cons_prefix_cons.2 ⟨rfl, List.nil_prefix⟩
    have hpasses := h.passes [name] hentry (by simp)
    have hdirectory := h.directories [name] hentry (by simp) (by simpa using Ne.symm hne)
    obtain ⟨hname, hproper⟩ := List.forall_mem_cons.1 h.proper
    refine ⟨by simpa using hlisted, hname, by simpa using hpasses,
      by simpa using hdirectory.1, by simpa using hdirectory.2, hne, hproper,
      fun front hfront hne => ?_, fun front hfront hne hne' => ?_, fun front hfront hne => ?_,
      by simpa using h.file, by simpa using h.readable⟩
    · simpa using h.passes (name :: front) (List.cons_prefix_cons.2 ⟨rfl, hfront⟩) (by simp)
    · simpa using h.directories (name :: front) (List.cons_prefix_cons.2 ⟨rfl, hfront⟩) (by simp)
        (by simpa using hne')
    · simpa using h.listed (name :: front) (List.cons_prefix_cons.2 ⟨rfl, hfront⟩)
        (by simpa using hne)
  · rintro ⟨hlisted, hname, hpasses, hdirectory, hlink, h⟩
    refine ⟨by simp, List.forall_mem_cons.2 ⟨hname, h.proper⟩, fun front hfront hne => ?_,
      fun front hfront hne hne' => ?_, fun front hfront hne => ?_, by simpa using h.file,
      by simpa using h.readable⟩
    · rcases List.prefix_cons_iff.1 hfront with rfl | ⟨rest, rfl, hrest⟩
      · exact absurd rfl hne
      · cases rest with
        | nil => simpa using hpasses
        | cons next rest => simpa using h.passes (next :: rest) hrest (by simp)
    · rcases List.prefix_cons_iff.1 hfront with rfl | ⟨rest, rfl, hrest⟩
      · exact absurd rfl hne
      · cases rest with
        | nil => exact ⟨by simpa using hdirectory, by simpa using hlink⟩
        | cons next rest =>
            simpa using h.directories (next :: rest) hrest (by simp) (by simpa using hne')
    · rcases List.prefix_cons_iff.1 hfront with rfl | ⟨rest, rfl, hrest⟩
      · simpa using hlisted
      · simpa using h.listed rest hrest (by simpa using hne)

/-- What is reached through an entry is the entry itself, or below it. -/
theorem Reached.cases_head (h : t.Reached path names content) (hhead : names.head? = some name) :
    t.Passes (path.child name) ∧
      (names = [name] ∧ t.tree.IsFile t.directory (path.child name) content ∧
          (path.child name).text ∉ t.faults.read ∨
        t.tree.IsDirectory t.directory (path.child name) ∧
          ¬t.tree.IsLink t.directory (path.child name)) := by
  obtain ⟨rest, rfl⟩ := List.head?_eq_some_iff.1 hhead
  cases rest with
  | nil =>
      obtain ⟨-, -, hpasses, hfile, hread⟩ := reached_singleton.1 h
      exact ⟨hpasses, Or.inl ⟨rfl, hfile, hread⟩⟩
  | cons next rest =>
      obtain ⟨-, -, hpasses, hdirectory, hlink, -⟩ := (reached_cons (by simp)).1 h
      exact ⟨hpasses, Or.inr ⟨hdirectory, hlink⟩⟩

/-- What is reached from a directory begins with one of its entries. -/
theorem Reached.exists_entry {location : Location} {tree : Tree}
    (h : t.Reached path (name :: names) content)
    (hlookup : t.tree.lookup t.directory path = .present location tree) :
    ∃ sub, tree.entry? name = some sub := by
  have hname : Tree.isName name = true := h.proper name (by simp)
  rcases (h.cases_head rfl).2 with ⟨-, hfile, -⟩ | ⟨hdirectory, -⟩
  · obtain ⟨location', hfound⟩ := hfile
    obtain ⟨sub, hsub, -⟩ := Tree.entry?_of_lookup_child hname hlookup hfound
    exact ⟨sub, hsub⟩
  · obtain ⟨location', entries, hfound⟩ := hdirectory
    obtain ⟨sub, hsub, -⟩ := Tree.entry?_of_lookup_child hname hlookup hfound
    exact ⟨sub, hsub⟩

/-! ### Texts in order -/

/-- The text of a file below a path. -/
def unitOf (path : Path) (file : List String × List UInt8) : SourceUnit :=
  ⟨(path.below file.1).text, Text.Utf8.decodeLossy file.2⟩

/-- Some texts are those of certain files below a path, in the strict order of the names that lead
to the files. -/
def Yields (path : Path) (reached : List String → List UInt8 → Prop) (units : List SourceUnit) :
    Prop :=
  ∃ found : List (List String × List UInt8), units = found.map (unitOf path) ∧
    (∀ names content, (names, content) ∈ found ↔ reached names content) ∧
    found.Pairwise fun a b => a.1 < b.1

variable {reached reached' : List String → List UInt8 → Prop} {units units' : List SourceUnit}

theorem Yields.nil (h : ∀ names content, ¬reached names content) : Yields path reached [] :=
  ⟨[], rfl, fun names content => by simp [h], List.Pairwise.nil⟩

theorem Yields.congr (h : Yields path reached units)
    (hiff : ∀ names content, reached names content ↔ reached' names content) :
    Yields path reached' units := by
  obtain ⟨found, hunits, hmem, hordered⟩ := h
  exact ⟨found, hunits, fun names content => (hmem names content).trans (hiff names content),
    hordered⟩

theorem Yields.append (h : Yields path reached units) (h' : Yields path reached' units')
    (hlt : ∀ names content names' content', reached names content → reached' names' content' →
      names < names') :
    Yields path (fun names content => reached names content ∨ reached' names content)
      (units ++ units') := by
  obtain ⟨found, rfl, hmem, hordered⟩ := h
  obtain ⟨found', rfl, hmem', hordered'⟩ := h'
  refine ⟨found ++ found', (List.map_append ..).symm, fun names content => ?_, ?_⟩
  · rw [List.mem_append, hmem, hmem']
  · refine List.pairwise_append.2 ⟨hordered, hordered', fun a ha b hb => ?_⟩
    exact hlt _ _ _ _ ((hmem a.1 a.2).1 ha) ((hmem' b.1 b.2).1 hb)

/-- The files below an entry, seen from the directory. -/
theorem Yields.ofChild (h : Yields (path.child name) reached units) :
    Yields path (fun names content => ∃ rest, names = name :: rest ∧ reached rest content)
      units := by
  obtain ⟨found, rfl, hmem, hordered⟩ := h
  refine ⟨found.map fun file => (name :: file.1, file.2), ?_, fun names content => ?_, ?_⟩
  · rw [List.map_map]
    exact List.map_congr_left fun file _ => by simp [unitOf]
  · rw [List.mem_map]
    constructor
    · rintro ⟨file, hfile, heq⟩
      cases heq
      exact ⟨file.1, rfl, (hmem file.1 file.2).1 hfile⟩
    · rintro ⟨rest, rfl, hreached⟩
      exact ⟨(rest, content), (hmem rest content).2 hreached, rfl⟩
  · refine List.pairwise_map.2 (hordered.imp fun hlt => ?_)
    exact List.cons_lt_cons_iff.2 (Or.inr ⟨rfl, hlt⟩)

/-- The files below entries in the order of their names. -/
theorem Yields.flatMap {reached : List String → List UInt8 → Prop}
    {items : List (String × List Event)} (hordered : items.Pairwise fun a b => a.1 < b.1)
    (h : ∀ item ∈ items, Yields path
      (fun names content => names.head? = some item.1 ∧ reached names content)
      (Event.units item.2)) :
    Yields path
      (fun names content => ∃ item ∈ items, names.head? = some item.1 ∧ reached names content)
      (Event.units (items.flatMap Prod.snd)) := by
  induction items with
  | nil => exact Yields.nil (by simp)
  | cons item items ih =>
      obtain ⟨hfirst, hordered⟩ := List.pairwise_cons.1 hordered
      obtain ⟨hitem, hitems⟩ := List.forall_mem_cons.1 h
      rw [List.flatMap_cons, Event.units_append]
      -- the first names differ, so they decide the order
      refine (hitem.append (ih hordered hitems) ?_).congr fun names content => ?_
      · rintro names content names' content' ⟨hhead, -⟩ ⟨other, hother, hhead', -⟩
        obtain ⟨rest, rfl⟩ := List.head?_eq_some_iff.1 hhead
        obtain ⟨rest', rfl⟩ := List.head?_eq_some_iff.1 hhead'
        exact List.cons_lt_cons_iff.2 (Or.inl (hfirst other hother))
      · simp only [List.mem_cons, exists_eq_or_imp]

/-- The files below a path decide their texts. -/
theorem Yields.unique (h : Yields path reached units) (h' : Yields path reached units') :
    units = units' := by
  obtain ⟨found, rfl, hmem, hordered⟩ := h
  obtain ⟨found', rfl, hmem', hordered'⟩ := h'
  -- both lists have the same members, and ascend
  have heq : found = found' := hordered.eq_of_mem_iff hordered' fun file =>
    (hmem file.1 file.2).trans (hmem' file.1 file.2).symm
  rw [heq]

/-! ### Walks -/

theorem walkEntries_eq_map (t : Traversal) (path : Path) (entries : List (String × Tree)) :
    t.walkEntries path entries = entries.map (t.walkEntry path) := by
  induction entries with
  | nil => rfl
  | cons entry rest ih => rw [walkEntries, ih, List.map_cons]

theorem walkEntry_fst (t : Traversal) (path : Path) (entry : String × Tree) :
    (t.walkEntry path entry).1 = entry.1 := by
  unfold walkEntry
  dsimp only
  split
  · rfl
  · split
    · rfl
    · split
      · split
        · rfl
        · rfl
      · rfl
      · rfl
      · rfl

/-- A file that is an entry of the directory gives its text if it can be read. -/
theorem yields_readFile (hlisted : path.text ∉ t.faults.list) (hname : Tree.isName name = true)
    (hpasses : t.Passes (path.child name))
    (hfile : t.tree.IsFile t.directory (path.child name) content) :
    Yields path (fun names content => names.head? = some name ∧ t.Reached path names content)
      (Event.units [t.readFile (path.child name) content]) := by
  unfold readFile
  split
  · next hfault =>
      refine Yields.nil fun names content' ⟨hhead, hreached⟩ => ?_
      rcases (hreached.cases_head hhead).2 with ⟨-, -, hread⟩ | ⟨hdirectory, -⟩
      · exact hread (by simpa using hfault)
      · exact hfile.not_isDirectory hdirectory
  · next hfault =>
      refine ⟨[([name], content)], by simp [unitOf, Event.units, Event.unit?], ?_, by simp⟩
      intro names content'
      rw [List.mem_singleton]
      constructor
      · intro heq
        cases heq
        exact ⟨rfl, reached_singleton.2 ⟨hlisted, hname, hpasses, hfile, by simpa using hfault⟩⟩
      · rintro ⟨hhead, hreached⟩
        rcases (hreached.cases_head hhead).2 with ⟨rfl, hfile', -⟩ | ⟨hdirectory, -⟩
        · rw [hfile.unique hfile']
        · exact absurd hdirectory hfile.not_isDirectory

/-- A directory that is an entry of the directory gives what is below it. -/
theorem yields_directory (hlisted : path.text ∉ t.faults.list) (hname : Tree.isName name = true)
    (hpasses : t.Passes (path.child name))
    (hdirectory : t.tree.IsDirectory t.directory (path.child name))
    (hlink : ¬t.tree.IsLink t.directory (path.child name))
    (h : Yields (path.child name) (t.Reached (path.child name)) units) :
    Yields path (fun names content => names.head? = some name ∧ t.Reached path names content)
      units := by
  refine h.ofChild.congr fun names content => ⟨?_, ?_⟩
  · rintro ⟨rest, rfl, hreached⟩
    refine ⟨rfl, (reached_cons hreached.ne_nil).2 ?_⟩
    exact ⟨hlisted, hname, hpasses, hdirectory, hlink, hreached⟩
  · rintro ⟨hhead, hreached⟩
    obtain ⟨rest, rfl⟩ := List.head?_eq_some_iff.1 hhead
    refine ⟨rest, rfl, ?_⟩
    cases rest with
    | nil =>
        obtain ⟨-, -, -, hfile, -⟩ := reached_singleton.1 hreached
        exact absurd hdirectory hfile.not_isDirectory
    | cons next rest =>
        obtain ⟨-, -, -, -, -, hreached⟩ := (reached_cons (by simp)).1 hreached
        exact hreached

/-- What a walk gives for an entry of a directory, given what it gives below the entry. -/
theorem yields_walkEntry {location : Location} {tree sub : Tree}
    (hlookup : t.tree.lookup t.directory path = .present location tree)
    (hlisted : path.text ∉ t.faults.list) (hname : Tree.isName name = true)
    (hentry : tree.entry? name = some sub)
    (hbelow : ∀ location', t.tree.lookup t.directory (path.child name) = .present location' sub →
      Yields (path.child name) (t.Reached (path.child name))
        (Event.units (t.walk (path.child name) sub))) :
    Yields path (fun names content => names.head? = some name ∧ t.Reached path names content)
      (Event.units (t.walkEntry path (name, sub)).2) := by
  unfold walkEntry
  dsimp only
  split
  · next hexcluded =>
      refine Yields.nil fun names content ⟨hhead, hreached⟩ => ?_
      exact absurd (hreached.cases_head hhead).1.1 (by simp [hexcluded])
  · next hexcluded =>
      split
      · next hstat =>
          refine Yields.nil fun names content ⟨hhead, hreached⟩ => ?_
          exact (hreached.cases_head hhead).1.2 (by simpa using hstat)
      · next hstat =>
          have hpasses : t.Passes (path.child name) :=
            ⟨by simpa using hexcluded, by simpa using hstat⟩
          split
          · next location' entries hfound =>
              have hdirectory : t.tree.IsDirectory t.directory (path.child name) := ⟨_, _, hfound⟩
              -- a directory that is found is the entry itself, or behind it as a link
              obtain ⟨sub', hsub', hcases⟩ := Tree.entry?_of_lookup_child hname hlookup hfound
              cases hsub'.symm.trans hentry
              split
              · next target =>
                  refine Yields.nil fun names content ⟨hhead, hreached⟩ => ?_
                  rcases (hreached.cases_head hhead).2 with ⟨-, hfile, -⟩ | ⟨-, hlink⟩
                  · exact hfile.not_isDirectory hdirectory
                  · exact hlink ((Tree.isLink_child_iff hlookup name).2 ⟨target, hentry⟩)
              · next hnolink =>
                  rcases hcases with ⟨target, rfl⟩ | rfl
                  · exact absurd rfl (hnolink target)
                  · refine yields_directory hlisted hname hpasses hdirectory ?_ (hbelow _ hfound)
                    intro hlink
                    obtain ⟨target, htarget⟩ := (Tree.isLink_child_iff hlookup name).1 hlink
                    cases hentry.symm.trans htarget
          · next location' content hfound =>
              exact yields_readFile hlisted hname hpasses ⟨location', hfound⟩
          · next hfound =>
              refine Yields.nil fun names content ⟨hhead, hreached⟩ => ?_
              rcases (hreached.cases_head hhead).2 with ⟨-, ⟨_, hfile⟩, -⟩ | ⟨⟨_, _, hdirectory⟩, -⟩
              · cases hfound.symm.trans hfile
              · cases hfound.symm.trans hdirectory
          · next hnodirectory hnofile _ =>
              refine Yields.nil fun names content ⟨hhead, hreached⟩ => ?_
              rcases (hreached.cases_head hhead).2 with ⟨-, ⟨_, hfile⟩, -⟩ | ⟨⟨_, _, hdirectory⟩, -⟩
              · exact hnofile _ _ hfile
              · exact hnodirectory _ _ hdirectory

/-- Nothing is reached from what has no entries. -/
theorem not_reached_of_no_entries {location : Location} {tree : Tree}
    (hlookup : t.tree.lookup t.directory path = .present location tree)
    (hnone : ∀ name, tree.entry? name = none) (names : List String) (content : List UInt8) :
    ¬t.Reached path names content := by
  intro h
  obtain ⟨name, rest, rfl⟩ := List.exists_cons_of_ne_nil h.ne_nil
  obtain ⟨sub, hsub⟩ := h.exists_entry hlookup
  cases (hnone name).symm.trans hsub

/-- What a walk gives for the entries of a directory, given what it gives below each of them. -/
theorem yields_entries {location : Location} {entries : List (String × Tree)}
    (hlookup : t.tree.lookup t.directory path = .present location (.directory entries))
    (hlisted : path.text ∉ t.faults.list) (hnodup : (entries.map Prod.fst).Nodup)
    (hnames : ∀ entry ∈ entries, Tree.isName entry.1 = true)
    (hbelow : ∀ entry ∈ entries, ∀ location',
      t.tree.lookup t.directory (path.child entry.1) = .present location' entry.2 →
      Yields (path.child entry.1) (t.Reached (path.child entry.1))
        (Event.units (t.walk (path.child entry.1) entry.2))) :
    Yields path (t.Reached path)
      (Event.units ((Text.inOrder Prod.fst (t.walkEntries path entries)).flatMap Prod.snd)) := by
  have hfst : (t.walkEntries path entries).map Prod.fst = entries.map Prod.fst := by
    rw [walkEntries_eq_map, List.map_map]
    exact List.map_congr_left fun entry _ => walkEntry_fst t path entry
  have hmem : ∀ item, item ∈ Text.inOrder Prod.fst (t.walkEntries path entries) ↔
      ∃ entry ∈ entries, t.walkEntry path entry = item := by
    intro item
    rw [(Text.inOrder_perm _ _).mem_iff, walkEntries_eq_map, List.mem_map]
  have hitems : ∀ item ∈ Text.inOrder Prod.fst (t.walkEntries path entries),
      Yields path (fun names content => names.head? = some item.1 ∧ t.Reached path names content)
        (Event.units item.2) := by
    intro item hitem
    obtain ⟨⟨name, sub⟩, hentry, rfl⟩ := (hmem item).1 hitem
    rw [walkEntry_fst]
    exact yields_walkEntry hlookup hlisted (hnames _ hentry)
      (Tree.lookup_entries_of_mem hnodup hentry) (hbelow _ hentry)
  refine (Yields.flatMap (Text.pairwise_lt_inOrder (by rwa [hfst])) hitems).congr ?_
  intro names content
  constructor
  · rintro ⟨item, -, -, hreached⟩
    exact hreached
  · intro hreached
    obtain ⟨name, rest, rfl⟩ := List.exists_cons_of_ne_nil hreached.ne_nil
    obtain ⟨sub, hsub⟩ := hreached.exists_entry hlookup
    refine ⟨t.walkEntry path (name, sub), ?_, by rw [walkEntry_fst, List.head?_cons], hreached⟩
    exact (hmem _).2 ⟨(name, sub), Tree.mem_of_lookup_entries hsub, rfl⟩

/-- A walk gives the files that it reaches. -/
theorem yields_walk (hwellFormed : t.tree.wellFormed = true) (tree : Tree) :
    ∀ {path : Path} {location : Location}, t.tree.lookup t.directory path = .present location tree →
      Yields path (t.Reached path) (Event.units (t.walk path tree)) := by
  induction tree using Tree.inductionOn with
  | file content => exact fun h => Yields.nil (not_reached_of_no_entries h fun _ => rfl)
  | link target => exact fun h => Yields.nil (not_reached_of_no_entries h fun _ => rfl)
  | pipe => exact fun h => Yields.nil (not_reached_of_no_entries h fun _ => rfl)
  | directory entries ih =>
      intro path location hlookup
      obtain ⟨hnodup, hentries⟩ :=
        Tree.entriesWellFormed_iff.1 (Tree.wellFormed_of_lookup hwellFormed hlookup)
      unfold walk
      split
      · next hlist =>
          refine Yields.nil fun names content hreached => ?_
          have hlisted := hreached.listed [] List.nil_prefix (Ne.symm hreached.ne_nil)
          exact hlisted (by simpa using hlist)
      · next hlist =>
          exact yields_entries hlookup (by simpa using hlist) hnodup
            (fun entry hentry => (hentries entry hentry).1)
            fun entry hentry location' => ih entry hentry

/-! ### Every file once, in any listing -/

/-- Different files have different names in a report. -/
theorem nodup_sources (h : Yields path (t.Reached path) units) :
    (units.map SourceUnit.source).Nodup := by
  obtain ⟨found, rfl, hmem, hordered⟩ := h
  rw [List.map_map, List.nodup_iff_pairwise_ne, List.pairwise_map]
  refine hordered.imp_of_mem fun {a b} ha hb hlt htext => ?_
  have hreached := (hmem a.1 a.2).1 ha
  have hreached' := (hmem b.1 b.2).1 hb
  have hslash (file : List String × List UInt8) (h : t.Reached path file.1 file.2) :
      ∀ name ∈ file.1, '/' ∉ name.toList := fun name hname =>
    (Tree.isName_iff.1 (h.proper name hname)).1
  -- no name has a slash, so the same path would mean the same names
  have heq := Path.text_below_inj hreached.ne_nil hreached'.ne_nil (hslash a hreached)
    (hslash b hreached') htext
  rw [heq] at hlt
  exact List.lt_irrefl _ hlt

/-- What is reached is the same in trees that are alike. -/
theorem Reached.of_alike {tree : Tree} (halike : t.tree.Alike tree)
    (h : t.Reached path names content) : { t with tree := tree }.Reached path names content where
  ne_nil := h.ne_nil
  proper := h.proper
  passes := h.passes
  directories front hfront hne hne' := by
    obtain ⟨hdirectory, hlink⟩ := h.directories front hfront hne hne'
    exact ⟨halike.isDirectory hdirectory, fun hlink' => hlink (halike.symm.isLink hlink')⟩
  listed := h.listed
  file := halike.isFile h.file
  readable := h.readable

/-- **A walk gives every file that it reaches, once, in order, and whatever the order of the
listings.**  Its texts are those of the files that are reached, in the strict order of the lists of
names that lead to them; no two of them have the same path; and any tree with the same at every
location gives the same texts. -/
theorem walk_yields_reached (hwellFormed : t.tree.wellFormed = true) {location : Location}
    {entries : List (String × Tree)}
    (hlookup : t.tree.lookup t.directory path = .present location (.directory entries)) :
    Yields path (t.Reached path) (Event.units (t.walk path (.directory entries))) ∧
      ((Event.units (t.walk path (.directory entries))).map SourceUnit.source).Nodup ∧
      ∀ (tree : Tree) (location' : Location) (entries' : List (String × Tree)),
        tree.wellFormed = true → t.tree.Alike tree →
        tree.lookup t.directory path = .present location' (.directory entries') →
        Event.units ({ t with tree := tree }.walk path (.directory entries')) =
          Event.units (t.walk path (.directory entries)) := by
  have hyields := yields_walk hwellFormed _ hlookup
  refine ⟨hyields, nodup_sources hyields, ?_⟩
  intro tree location' entries' hwellFormed' halike hlookup'
  have hyields' := @yields_walk { t with tree := tree } hwellFormed' _ _ _ hlookup'
  refine hyields'.unique (hyields.congr fun names content => ⟨?_, ?_⟩)
  · exact fun h => h.of_alike halike
  · exact fun h => @Reached.of_alike { t with tree := tree } _ _ _ _ halike.symm h

/-- A directory comes before a file whose name goes on after that of the directory, in either
listing.  The path is absolute and leads through an absolute link to the root of all files; `mod`
is a link to a file as if that were a directory. -/
theorem walk_yields_reached_dotted :
    let entries : List (String × Tree) :=
      [("a.b", .file [98]), ("loop", .link "loop"), ("p", .pipe), ("up", .link "a"),
        ("mod", .link "a.b/"), ("l", .link "/"),
        ("a", .directory [("x.txt", .file []), ("c", .link "/l/../a.b")])]
    let t : Traversal :=
      { tree := .directory entries, directory := ["a"], excluded := ["*.txt"] }
    let path : Path := ⟨"/", ["l"]⟩
    t.tree.wellFormed = true ∧
      t.tree.lookup t.directory path = .present [] (.directory entries) ∧
      Event.units (t.walk path (.directory entries)) = [⟨"/l/a/c", "b"⟩, ⟨"/l/a.b", "b"⟩] ∧
      Yields path (t.Reached path) (Event.units (t.walk path (.directory entries))) ∧
      Event.units
          ({ t with tree := .directory entries.reverse }.walk path (.directory entries.reverse)) =
        Event.units (t.walk path (.directory entries)) := by
  intro entries t path
  have hwellFormed : t.tree.wellFormed = true := by decide
  have hnull : Tree.holdsNull path = false := by decide +kernel
  have hnear : ¬4096 ≤ path.text.utf8ByteSize := by decide +kernel
  have hfollow (tree : Tree) :
      tree.lookup ["a"] path = tree.follow Tree.linkLimit (path.start ["a"]) path.parts := by
    rw [Tree.lookup, if_neg (by simp [hnull]), if_neg hnear]
  have hlookup : t.tree.lookup t.directory path = .present [] (.directory entries) :=
    (hfollow t.tree).trans rfl
  obtain ⟨hyields, -, hlistings⟩ := walk_yields_reached hwellFormed hlookup
  refine ⟨hwellFormed, hlookup, by decide +kernel, hyields, ?_⟩
  refine hlistings (.directory entries.reverse) [] entries.reverse (by decide) ?_ ?_
  · exact Tree.alike_of_perm (List.reverse_perm entries).symm (by decide)
  · exact (hfollow (.directory entries.reverse)).trans rfl

end Traversal

end LineLint
