/-
**Faults take away the files that they strike, and nothing else.**

A traversal goes on after whatever cannot be looked at, listed or read.  What it gives is what it
would give without any faults, less the files that a fault strikes: one that cannot be read itself,
or lies on the way down from an input path to the file and cannot be looked at or listed.  A fault
deep in a tree costs nothing of what comes after it.

Main definitions:

* `LineLint.Traversal.faultless` — the traversal without faults;
* `LineLint.Traversal.Gives` — the files whose texts an input path gives;
* `LineLint.Traversal.Struck` — **a file that a fault strikes**.

Main results:

* `LineLint.Traversal.yields_fromPath` — an input path gives the texts of those files, in order;
* `LineLint.Traversal.gives_iff` — a file is given if it would be without faults, and none strikes
  it;
* `LineLint.Traversal.fromPaths_contains_faults` — **faults take away the files that they strike,
  and nothing else**.
-/

import LineLint.Proofs.Traversal.Walk

set_option relaxedAutoImplicit false
set_option autoImplicit false

namespace LineLint

theorem Event.units_flatMap {α : Type} (items : List α) (events : α → List Event) :
    units (items.flatMap events) = items.flatMap fun item => units (events item) := by
  simp [units, List.filterMap_flatMap]

namespace Traversal

variable {t : Traversal} {recursive : Bool} {path : Path} {names : List String}
  {content : List UInt8}

/-! ### The files of an input path -/

/-- The file that the names lead to from an input path is one whose text it gives: the file at the
path itself, or one that a walk from there reaches. -/
def Gives (t : Traversal) (recursive : Bool) (path : Path) (names : List String)
    (content : List UInt8) : Prop :=
  t.Passes path ∧
    (names = [] ∧ t.tree.IsFile t.directory path content ∧ path.text ∉ t.faults.read ∨
      recursive = true ∧ t.tree.IsDirectory t.directory path ∧ t.Reached path names content)

/-- A path that leads to no file and to no directory gives nothing. -/
theorem not_gives_of_neither (hfile : ∀ content, ¬t.tree.IsFile t.directory path content)
    (hdirectory : ¬t.tree.IsDirectory t.directory path) (names : List String)
    (content : List UInt8) :
    ¬t.Gives recursive path names content := by
  rintro ⟨-, ⟨-, hisFile, -⟩ | ⟨-, hisDirectory, -⟩⟩
  · exact hfile content hisFile
  · exact hdirectory hisDirectory

/-- A file that is an input path gives its own text if it can be read. -/
theorem yields_input_file (hpasses : t.Passes path)
    (hfile : t.tree.IsFile t.directory path content) :
    Yields path (t.Gives recursive path) (Event.units [t.readFile path content]) := by
  have hnodirectory : ¬t.tree.IsDirectory t.directory path := hfile.not_isDirectory
  unfold readFile
  split
  · next hfault =>
      refine Yields.nil fun names content' hgives => ?_
      rcases hgives.2 with ⟨-, -, hread⟩ | ⟨-, hdirectory, -⟩
      · exact hread (by simpa using hfault)
      · exact hnodirectory hdirectory
  · next hfault =>
      refine ⟨[([], content)], by simp [unitOf, Event.units, Event.unit?], ?_, by simp⟩
      intro names content'
      rw [List.mem_singleton]
      constructor
      · intro heq
        cases heq
        exact ⟨hpasses, Or.inl ⟨rfl, hfile, by simpa using hfault⟩⟩
      · rintro ⟨-, ⟨rfl, hfile', -⟩ | ⟨-, hdirectory, -⟩⟩
        · rw [hfile.unique hfile']
        · exact absurd hdirectory hnodirectory

/-- A directory that is an input path gives what a walk reaches, if there is to be one. -/
theorem yields_input_directory (hwellFormed : t.tree.wellFormed = true) (hpasses : t.Passes path)
    {location : Location} {entries : List (String × Tree)}
    (hlookup : t.tree.lookup t.directory path = .present location (.directory entries)) :
    Yields path (t.Gives recursive path)
      (Event.units (t.fromFound recursive path (.present location (.directory entries)))) := by
  have hdirectory : t.tree.IsDirectory t.directory path := ⟨location, entries, hlookup⟩
  have hnofile : ∀ content, ¬t.tree.IsFile t.directory path content := fun content hfile =>
    hfile.not_isDirectory hdirectory
  unfold fromFound
  dsimp only
  split
  · next hrecursive =>
      refine (yields_walk hwellFormed _ hlookup).congr fun names content => ⟨fun hreached => ?_, ?_⟩
      · exact ⟨hpasses, Or.inr ⟨hrecursive, hdirectory, hreached⟩⟩
      · rintro ⟨-, ⟨-, hfile, -⟩ | ⟨-, -, hreached⟩⟩
        · exact absurd hfile (hnofile content)
        · exact hreached
  · next hrecursive =>
      refine Yields.nil fun names content hgives => ?_
      rcases hgives.2 with ⟨-, hfile, -⟩ | ⟨hrecursive', -⟩
      · exact hnofile content hfile
      · exact hrecursive hrecursive'

/-- An input path gives the texts of its files, in order. -/
theorem yields_fromPath (hwellFormed : t.tree.wellFormed = true) (recursive : Bool) (path : Path) :
    Yields path (t.Gives recursive path) (Event.units (t.fromPath recursive path)) := by
  unfold fromPath
  split
  · next hexcluded =>
      refine Yields.nil fun names content hgives => ?_
      exact absurd hgives.1.1 (by simp [hexcluded])
  · next hexcluded =>
      split
      · next hstat =>
          refine Yields.nil fun names content hgives => ?_
          exact hgives.1.2 (by simpa using hstat)
      · next hstat =>
          have hpasses : t.Passes path := ⟨by simpa using hexcluded, by simpa using hstat⟩
          have hneither (hfile : ∀ location content,
                t.tree.lookup t.directory path ≠ .present location (.file content))
              (hdirectory : ∀ location entries,
                t.tree.lookup t.directory path ≠ .present location (.directory entries)) :
              Yields path (t.Gives recursive path) [] := by
            refine Yields.nil (not_gives_of_neither ?_ ?_)
            · rintro content ⟨location, hlookup⟩
              exact hfile location content hlookup
            · rintro ⟨location, entries, hlookup⟩
              exact hdirectory location entries hlookup
          cases hlookup : t.tree.lookup t.directory path with
          | vacant location => exact hneither (by simp [hlookup]) (by simp [hlookup])
          | absent => exact hneither (by simp [hlookup]) (by simp [hlookup])
          | notDirectory => exact hneither (by simp [hlookup]) (by simp [hlookup])
          | nameTooLong => exact hneither (by simp [hlookup]) (by simp [hlookup])
          | tooManyLinks => exact hneither (by simp [hlookup]) (by simp [hlookup])
          | present location tree =>
              cases tree with
              | file content => exact yields_input_file hpasses ⟨location, hlookup⟩
              | directory entries => exact yields_input_directory hwellFormed hpasses hlookup
              | link target => exact hneither (by simp [hlookup]) (by simp [hlookup])
              | pipe => exact hneither (by simp [hlookup]) (by simp [hlookup])

/-! ### The files that faults strike -/

/-- The traversal of the same tree without faults. -/
def faultless (t : Traversal) : Traversal := { t with faults := {} }

/-- A fault strikes the file that the names lead to from an input path: the file cannot be read; or
it, the input path or something between them cannot be looked at; or the input path or something
between them cannot be listed. -/
def Struck (t : Traversal) (path : Path) (names : List String) : Prop :=
  (path.below names).text ∈ t.faults.read ∨
    (∃ front ∈ names.inits, (path.below front).text ∈ t.faults.stat) ∨
    ∃ front ∈ names.inits, front ≠ names ∧ (path.below front).text ∈ t.faults.list

instance : Decidable (t.Struck path names) :=
  inferInstanceAs (Decidable ((path.below names).text ∈ t.faults.read ∨
    (∃ front ∈ names.inits, (path.below front).text ∈ t.faults.stat) ∨
    ∃ front ∈ names.inits, front ≠ names ∧ (path.below front).text ∈ t.faults.list))

theorem not_struck_iff :
    ¬t.Struck path names ↔ (path.below names).text ∉ t.faults.read ∧
      (∀ front, front <+: names → (path.below front).text ∉ t.faults.stat) ∧
      ∀ front, front <+: names → front ≠ names → (path.below front).text ∉ t.faults.list := by
  simp only [Struck, List.mem_inits, not_or, not_exists, not_and]

/-- What a walk reaches is what it would reach without faults, unless one strikes on the way. -/
theorem reached_iff :
    t.Reached path names content ↔ t.faultless.Reached path names content ∧
      (path.below names).text ∉ t.faults.read ∧
      (∀ front, front <+: names → front ≠ [] → (path.below front).text ∉ t.faults.stat) ∧
      ∀ front, front <+: names → front ≠ names → (path.below front).text ∉ t.faults.list := by
  constructor
  · intro h
    refine ⟨⟨h.ne_nil, h.proper, fun front hfront hne => ?_, h.directories, ?_, h.file, ?_⟩,
      h.readable, fun front hfront hne => (h.passes front hfront hne).2, h.listed⟩
    · exact ⟨(h.passes front hfront hne).1, List.not_mem_nil⟩
    · exact fun front _ _ => List.not_mem_nil
    · exact List.not_mem_nil
  · rintro ⟨h, hread, hstat, hlist⟩
    refine ⟨h.ne_nil, h.proper, fun front hfront hne => ?_, h.directories, hlist, h.file, hread⟩
    exact ⟨(h.passes front hfront hne).1, hstat front hfront hne⟩

/-- A file is given if it would be without faults, and none strikes it. -/
theorem gives_iff :
    t.Gives recursive path names content ↔
      t.faultless.Gives recursive path names content ∧ ¬t.Struck path names := by
  rw [not_struck_iff]
  constructor
  · rintro ⟨⟨hexcluded, hstat⟩, ⟨rfl, hfile, hread⟩ | ⟨hrecursive, hdirectory, hreached⟩⟩
    · refine ⟨⟨⟨hexcluded, List.not_mem_nil⟩, Or.inl ⟨rfl, hfile, List.not_mem_nil⟩⟩, ?_, ?_, ?_⟩
      · simpa using hread
      · intro front hfront
        rw [List.prefix_nil.1 hfront]
        simpa using hstat
      · intro front hfront hne
        exact absurd (List.prefix_nil.1 hfront) hne
    · obtain ⟨hreached, hread, hstats, hlist⟩ := reached_iff.1 hreached
      refine ⟨⟨⟨hexcluded, List.not_mem_nil⟩, Or.inr ⟨hrecursive, hdirectory, hreached⟩⟩, hread,
        fun front hfront => ?_, hlist⟩
      by_cases hne : front = []
      · simpa [hne] using hstat
      · exact hstats front hfront hne
  · rintro ⟨⟨⟨hexcluded, -⟩, hgives⟩, hread, hstat, hlist⟩
    refine ⟨⟨hexcluded, by simpa using hstat [] List.nil_prefix⟩, ?_⟩
    rcases hgives with ⟨rfl, hfile, -⟩ | ⟨hrecursive, hdirectory, hreached⟩
    · exact Or.inl ⟨rfl, hfile, by simpa using hread⟩
    · refine Or.inr ⟨hrecursive, hdirectory, reached_iff.2 ⟨hreached, hread, ?_, hlist⟩⟩
      exact fun front hfront _ => hstat front hfront

/-- An input path with faults gives what is left of its files without faults. -/
theorem exists_found (hwellFormed : t.tree.wellFormed = true) (recursive : Bool) (path : Path) :
    ∃ found : List (List String × List UInt8),
      (∀ names content,
        (names, content) ∈ found ↔ t.faultless.Gives recursive path names content) ∧
      found.Pairwise (fun a b => a.1 < b.1) ∧
      Event.units (t.faultless.fromPath recursive path) = found.map (unitOf path) ∧
      Event.units (t.fromPath recursive path) =
        (found.filter fun file => ¬t.Struck path file.1).map (unitOf path) := by
  have hyields : Yields path (t.faultless.Gives recursive path)
      (Event.units (t.faultless.fromPath recursive path)) :=
    @yields_fromPath t.faultless hwellFormed recursive path
  obtain ⟨found, hunits, hmem, hordered⟩ := hyields
  refine ⟨found, hmem, hordered, hunits, (yields_fromPath hwellFormed recursive path).unique ?_⟩
  refine ⟨_, rfl, fun names content => ?_, hordered.sublist List.filter_sublist⟩
  rw [List.mem_filter, hmem, decide_eq_true_eq, ← gives_iff]

/-- **Faults take away the files that they strike, and nothing else.**  A traversal gives the texts
of each input path on its own, one after the other.  Without faults those are the texts of all files
of the path, in order; with faults they are the same texts in the same order, but for the files that
a fault strikes. -/
theorem fromPaths_contains_faults (hwellFormed : t.tree.wellFormed = true) (recursive : Bool) :
    (∀ paths : List Path,
      t.fromPaths recursive paths = paths.flatMap fun path => t.fromPaths recursive [path]) ∧
    ∃ found : Path → List (List String × List UInt8),
      (∀ path names content,
        (names, content) ∈ found path ↔ t.faultless.Gives recursive path names content) ∧
      (∀ path, (found path).Pairwise fun a b => a.1 < b.1) ∧
      ∀ paths : List Path,
        Event.units (t.faultless.fromPaths recursive paths) =
          paths.flatMap (fun path => (found path).map (unitOf path)) ∧
        Event.units (t.fromPaths recursive paths) =
          paths.flatMap fun path =>
            ((found path).filter fun file => ¬t.Struck path file.1).map (unitOf path) := by
  constructor
  · intro paths
    simp [fromPaths]
  · choose found hmem hordered hfaultless hfaults using @exists_found t hwellFormed recursive
    refine ⟨found, hmem, hordered, fun paths => ⟨?_, ?_⟩⟩
    · rw [fromPaths, Event.units_flatMap]
      exact List.flatMap_congr fun path _ => hfaultless path
    · rw [fromPaths, Event.units_flatMap]
      exact List.flatMap_congr fun path _ => hfaults path

/-- A directory that cannot be listed, and a file behind it that cannot be read: what stands between
them stays, also where the same directory is an input path of its own.  The first input path is
absolute and one of a link, and `m` is an absolute link. -/
theorem fromPaths_contains_faults_between :
    let entries : List (String × Tree) :=
      [("z", .file [122]), ("m", .link "/r/b/x"), ("n", .link "a/."),
        ("b", .directory [("x", .file [120])]), ("a", .file [97])]
    let t : Traversal :=
      { tree := .directory [("r", .directory entries), ("l", .link "/r")], directory := ["r"]
        faults := { list := ["/l/b"], read := ["/l/z"], stat := ["c"] } }
    let root : Path := ⟨"/", ["l"]⟩
    let paths : List Path := [root, root.child "b", ⟨"", ["b", "x"]⟩, ⟨"", ["c"]⟩]
    t.tree.wellFormed = true ∧ t.Struck root ["b", "x"] ∧ ¬t.Struck root ["m"] ∧
      Event.units (t.fromPaths true paths) = [⟨"/l/a", "a"⟩, ⟨"/l/m", "x"⟩, ⟨"b/x", "x"⟩] ∧
      ∃ found : Path → List (List String × List UInt8),
        Event.units (t.faultless.fromPaths true paths) =
          paths.flatMap (fun path => (found path).map (unitOf path)) ∧
        Event.units (t.fromPaths true paths) =
          paths.flatMap fun path =>
            ((found path).filter fun file => ¬t.Struck path file.1).map (unitOf path) := by
  intro entries t root paths
  have hwellFormed : t.tree.wellFormed = true := by decide
  obtain ⟨-, found, -, -, hunits⟩ := fromPaths_contains_faults hwellFormed true
  exact ⟨hwellFormed, by decide, by decide, by decide +kernel, found, hunits paths⟩

end Traversal

end LineLint
