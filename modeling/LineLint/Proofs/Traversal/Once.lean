/-
**A traversal comes to its end, and does nothing twice on the way.**

`LineLint.Traversal.walk` descends into the entries of a tree.  A program that walks a directory has
no tree in its hands: it has a path, asks what is there, and goes on with longer paths, each of
which is followed from the root again and may lead through links to anywhere.  The rules below say
what such a program does, path by path.  An input path is followed wherever it leads; a directory
that is met as an entry is walked only if the entry is no link.  So each walk goes on at an entry of
the real directory that the walk before it was in, and no arrangement of links brings it back.

Main definitions:

* `LineLint.Traversal.look` — what a path turns out to be, or why that cannot be told;
* `LineLint.Traversal.Action` — listing a real directory, visiting an entry of one, an event;
* `LineLint.Traversal.Performs` — **the rules of a traversal**, on paths alone.

Main results:

* `LineLint.Traversal.Performs.unique` — the rules leave no choice;
* `LineLint.Traversal.completes_walk`, `LineLint.Traversal.completes_input` — following the rules
  comes to an end, with the events of the traversal;
* `LineLint.Traversal.Performs.orderly` — no directory is listed and no entry visited twice;
* `LineLint.Traversal.traversal_ends_without_repeats` — **a traversal comes to its end, and does
  nothing twice on the way**.
-/

import LineLint.Proofs.Traversal.Walk

set_option relaxedAutoImplicit false
set_option autoImplicit false

namespace LineLint.Traversal

variable {t : Traversal}

/-! ### Looking at a path -/

/-- What a path turns out to be. -/
inductive Sight where
  | file (content : List UInt8)
  | directory
  | neither
  deriving DecidableEq

/-- What a path turns out to be, or why that cannot be told. -/
def look (t : Traversal) (path : Path) : Except String Sight :=
  if t.faults.stat.contains path.text then .error (denied path)
  else
    match t.tree.lookup t.directory path with
    | .present _ (.directory _) => .ok .directory
    | .present _ (.file content) => .ok (.file content)
    | .nameTooLong => .error (nameTooLong path)
    | _ => .ok .neither

theorem isDirectory_of_look {path : Path} (h : t.look path = .ok .directory) :
    t.tree.IsDirectory t.directory path := by
  unfold look at h
  split at h
  · cases h
  · split at h
    · next location entries hlookup => exact ⟨location, entries, hlookup⟩
    · cases h
    · cases h
    · cases h

/-! ### The rules -/

/-- How a traversal comes to a path: it is given, or met as an entry of a directory. -/
inductive Origin where
  | input
  | entry

/-- What a traversal has before it. -/
inductive Task where
  /-- A path is to be followed. -/
  | follow (origin : Origin) (path : Path)
  /-- The directory at a path is to be walked. -/
  | walk (path : Path)
  /-- Entries of the directory at a path are to be visited, one after the other. -/
  | visit (path : Path) (directory : Location) (names : List String)

/-- What a traversal does.  Directories stand under their real locations. -/
inductive Action where
  | list (directory : Location)
  | visit (directory : Location) (name : String)
  | event (event : Event)
  deriving DecidableEq

/-- The event of an action. -/
def Action.event? : Action → Option Event
  | .list _ => none
  | .visit _ _ => none
  | .event happened => some happened

/-- **The rules of a traversal that walks directories**: the actions for a task. -/
inductive Performs (t : Traversal) : Task → List Action → Prop
  | excluded {origin : Origin} {path : Path} : Glob.excludes t.excluded path = true →
      Performs t (.follow origin path) [.event (excludedNote path)]
  | unseen {origin : Origin} {path : Path} {reason : String} :
      Glob.excludes t.excluded path = false → t.look path = .error reason →
      Performs t (.follow origin path) [.event (skipping path reason)]
  | file {origin : Origin} {path : Path} {content : List UInt8} :
      Glob.excludes t.excluded path = false → t.look path = .ok (.file content) →
      Performs t (.follow origin path) [.event (t.readFile path content)]
  /-- A directory is walked; one that is met as an entry must not be a link. -/
  | directory {origin : Origin} {path : Path} {actions : List Action} :
      Glob.excludes t.excluded path = false → t.look path = .ok .directory →
      (origin = .entry → ¬t.tree.IsLink t.directory path) → Performs t (.walk path) actions →
      Performs t (.follow origin path) actions
  | link {path : Path} :
      Glob.excludes t.excluded path = false → t.look path = .ok .directory →
      t.tree.IsLink t.directory path →
      Performs t (.follow .entry path)
        [.event (note .debug ("Not following symlinked directory " ++ path.text))]
  | missing {path : Path} :
      Glob.excludes t.excluded path = false → t.look path = .ok .neither →
      Performs t (.follow .input path) [.event (skipping path "no such file or directory")]
  | passed {path : Path} :
      Glob.excludes t.excluded path = false → t.look path = .ok .neither →
      Performs t (.follow .entry path) []
  | unlisted {path : Path} {location : Location} {entries : List (String × Tree)} :
      t.tree.lookup t.directory path = .present location (.directory entries) →
      path.text ∈ t.faults.list →
      Performs t (.walk path) [.list location,
        .event (note .warning ("Skipping directory " ++ path.text ++ ": " ++ denied path))]
  | listed {path : Path} {location : Location} {entries : List (String × Tree)}
      {actions : List Action} :
      t.tree.lookup t.directory path = .present location (.directory entries) →
      path.text ∉ t.faults.list →
      Performs t (.visit path location (Text.inOrder id (entries.map Prod.fst))) actions →
      Performs t (.walk path) (.list location :: actions)
  | done {path : Path} {location : Location} : Performs t (.visit path location []) []
  | next {path : Path} {location : Location} {name : String} {names : List String}
      {first rest : List Action} :
      Performs t (.follow .entry (path.child name)) first →
      Performs t (.visit path location names) rest →
      Performs t (.visit path location (name :: names)) (.visit location name :: (first ++ rest))

/-- The rules leave no choice. -/
theorem Performs.unique {task : Task} {actions : List Action} (h : t.Performs task actions) :
    ∀ {other : List Action}, t.Performs task other → other = actions := by
  -- what a path looks like decides the rule, so two different rules never both apply
  induction h with
  | excluded hexcluded =>
      intro other h
      cases h <;> simp_all
  | unseen hexcluded hlook =>
      intro other h
      cases h <;> simp_all
  | file hexcluded hlook =>
      intro other h
      cases h <;> simp_all
  | directory hexcluded hlook hlink _ ih =>
      intro other h
      cases h with
      | directory _ _ _ hwalk => exact ih hwalk
      | _ => simp_all
  | link hexcluded hlook hlink =>
      intro other h
      cases h <;> simp_all
  | missing hexcluded hlook =>
      intro other h
      cases h <;> simp_all
  | passed hexcluded hlook =>
      intro other h
      cases h <;> simp_all
  | unlisted hlookup hlist =>
      intro other h
      cases h with
      | unlisted hlookup' _ =>
          cases hlookup.symm.trans hlookup'
          rfl
      | listed _ hlist' _ => exact absurd hlist hlist'
  | listed hlookup hlist _ ih =>
      intro other h
      cases h with
      | unlisted _ hlist' => exact absurd hlist' hlist
      | listed hlookup' _ hvisit =>
          cases hlookup.symm.trans hlookup'
          rw [ih hvisit]
  | done =>
      intro other h
      cases h
      rfl
  | next _ _ ihfirst ihrest =>
      intro other h
      cases h with
      | next hfirst hrest => rw [ihfirst hfirst, ihrest hrest]

/-! ### The end of a traversal -/

/-- Following the rules for a task comes to an end, with the given events. -/
def Completes (t : Traversal) (task : Task) (events : List Event) : Prop :=
  ∃ actions, t.Performs task actions ∧ actions.filterMap Action.event? = events

/-- What is done with an entry, in terms of looking at its path. -/
theorem walkEntry_snd (t : Traversal) (path : Path) (name : String) (tree : Tree) :
    (t.walkEntry path (name, tree)).2 =
      if Glob.excludes t.excluded (path.child name) then [excludedNote (path.child name)]
      else
        match t.look (path.child name) with
        | .error reason => [skipping (path.child name) reason]
        | .ok (.file content) => [t.readFile (path.child name) content]
        | .ok .neither => []
        | .ok .directory =>
          match tree with
          | .link _ =>
            [note .debug ("Not following symlinked directory " ++ (path.child name).text)]
          | _ => t.walk (path.child name) tree := by
  unfold walkEntry look
  dsimp only
  split
  · rfl
  · split
    · rfl
    · cases t.tree.lookup t.directory (path.child name) with
      | vacant => rfl
      | absent => rfl
      | notDirectory => rfl
      | nameTooLong => rfl
      | tooManyLinks => rfl
      | present location node =>
          cases node with
          | directory entries => cases tree <;> rfl
          | file content => rfl
          | link target => rfl
          | pipe => rfl

/-- An entry is done with, given that a walk of it would be. -/
theorem completes_entry {path : Path} {name : String} {sub tree : Tree} {location : Location}
    (hlookup : t.tree.lookup t.directory path = .present location tree)
    (hname : Tree.isName name = true)
    (hentry : tree.entry? name = some sub)
    (hbelow : ∀ location' entries, sub = .directory entries →
      t.tree.lookup t.directory (path.child name) = .present location' sub →
      t.Completes (.walk (path.child name)) (t.walk (path.child name) sub)) :
    t.Completes (.follow .entry (path.child name)) (t.walkEntry path (name, sub)).2 := by
  rw [walkEntry_snd]
  split
  · next hexcluded => exact ⟨_, .excluded hexcluded, rfl⟩
  · next hexcluded =>
      have hexcluded : Glob.excludes t.excluded (path.child name) = false := by
        simpa using hexcluded
      split
      · next reason hlook => exact ⟨_, .unseen hexcluded hlook, rfl⟩
      · next content hlook => exact ⟨_, .file hexcluded hlook, rfl⟩
      · next hlook => exact ⟨_, .passed hexcluded hlook, rfl⟩
      · next hlook =>
          have hlink : t.tree.IsLink t.directory (path.child name) ↔
              ∃ target, sub = .link target := by
            rw [Tree.isLink_child_iff hlookup name, hentry]
            simp
          split
          · next target => exact ⟨_, .link hexcluded hlook (hlink.2 ⟨target, rfl⟩), rfl⟩
          · next hother =>
              have hnolink : ¬t.tree.IsLink t.directory (path.child name) := by
                intro h
                obtain ⟨target, htarget⟩ := hlink.1 h
                exact hother target htarget
              -- the directory that was seen is the entry itself
              obtain ⟨location', entries, hchild⟩ := isDirectory_of_look hlook
              obtain ⟨sub', hsub', hcases⟩ := Tree.entry?_of_lookup_child hname hlookup hchild
              cases hsub'.symm.trans hentry
              rcases hcases with htarget | rfl
              · exact absurd (hlink.2 htarget) hnolink
              · obtain ⟨actions, hactions, hevents⟩ := hbelow location' entries rfl hchild
                exact ⟨actions, .directory hexcluded hlook (fun _ => hnolink) hactions, hevents⟩

/-- The visits of some entries are done with, given that each of them is. -/
theorem completes_visits {path : Path} (location : Location) {entries : List (String × Tree)}
    (h : ∀ entry ∈ entries,
      t.Completes (.follow .entry (path.child entry.1)) (t.walkEntry path entry).2) :
    t.Completes (.visit path location (entries.map Prod.fst))
      ((entries.map (t.walkEntry path)).flatMap Prod.snd) := by
  induction entries with
  | nil => exact ⟨[], .done, rfl⟩
  | cons entry entries ih =>
      obtain ⟨hentry, hentries⟩ := List.forall_mem_cons.1 h
      obtain ⟨first, hfirst, hevents⟩ := hentry
      obtain ⟨rest, hrest, hevents'⟩ := ih hentries
      refine ⟨_, .next hfirst hrest, ?_⟩
      rw [List.filterMap_cons_none rfl, List.filterMap_append, hevents, hevents', List.map_cons,
        List.flatMap_cons]

/-- A walk of a real directory comes to an end. -/
theorem completes_walk (hwellFormed : t.tree.wellFormed = true) (tree : Tree) :
    ∀ {path : Path} {location : Location} {entries : List (String × Tree)},
      tree = .directory entries → t.tree.lookup t.directory path = .present location tree →
      t.Completes (.walk path) (t.walk path tree) := by
  -- induction on what is really there: a walk goes on at entries of the directory it is in
  induction tree using Tree.inductionOn with
  | file content =>
      intro path location entries htree
      cases htree
  | link target =>
      intro path location entries htree
      cases htree
  | pipe =>
      intro path location entries htree
      cases htree
  | directory entries ih =>
      intro path location entries' _ hlookup
      obtain ⟨hnodup, hentries⟩ :=
        Tree.entriesWellFormed_iff.1 (Tree.wellFormed_of_lookup hwellFormed hlookup)
      unfold walk
      split
      · next hlist => exact ⟨_, .unlisted hlookup (by simpa using hlist), rfl⟩
      · next hlist =>
          have hsorted : ∀ entry ∈ Text.inOrder Prod.fst entries,
              t.Completes (.follow .entry (path.child entry.1)) (t.walkEntry path entry).2 := by
            intro entry hentry
            have hmem : entry ∈ entries := (Text.inOrder_perm Prod.fst entries).mem_iff.1 hentry
            refine completes_entry hlookup (hentries entry hmem).1
              (Tree.lookup_entries_of_mem hnodup hmem) ?_
            intro location' below hsub hchild
            exact ih entry hmem hsub hchild
          obtain ⟨actions, hactions, hevents⟩ := completes_visits location hsorted
          have hnames : Text.inOrder id (entries.map Prod.fst) =
              (Text.inOrder Prod.fst entries).map Prod.fst :=
            Text.inOrder_map (fun _ => rfl) entries
          have hwalks : Text.inOrder Prod.fst (t.walkEntries path entries) =
              (Text.inOrder Prod.fst entries).map (t.walkEntry path) := by
            rw [walkEntries_eq_map]
            exact Text.inOrder_map (walkEntry_fst t path) entries
          rw [← hnames] at hactions
          rw [hwalks, ← hevents]
          exact ⟨_, .listed hlookup (by simpa using hlist) hactions, rfl⟩

/-- What is done with an input path, in terms of looking at it. -/
theorem fromPath_true (t : Traversal) (path : Path) :
    t.fromPath true path =
      if Glob.excludes t.excluded path then [excludedNote path]
      else
        match t.look path with
        | .error reason => [skipping path reason]
        | .ok (.file content) => [t.readFile path content]
        | .ok .neither => [skipping path "no such file or directory"]
        | .ok .directory =>
          match t.tree.lookup t.directory path with
          | .present _ tree => t.walk path tree
          | _ => [] := by
  unfold fromPath look
  split
  · rfl
  · split
    · rfl
    · cases t.tree.lookup t.directory path with
      | vacant => rfl
      | absent => rfl
      | notDirectory => rfl
      | nameTooLong => rfl
      | tooManyLinks => rfl
      | present location node => cases node <;> rfl

/-- An input path is done with, whatever it leads to. -/
theorem completes_input (hwellFormed : t.tree.wellFormed = true) (path : Path) :
    t.Completes (.follow .input path) (t.fromPath true path) := by
  rw [fromPath_true]
  split
  · next hexcluded => exact ⟨_, .excluded hexcluded, rfl⟩
  · next hexcluded =>
      have hexcluded : Glob.excludes t.excluded path = false := by simpa using hexcluded
      split
      · next reason hlook => exact ⟨_, .unseen hexcluded hlook, rfl⟩
      · next content hlook => exact ⟨_, .file hexcluded hlook, rfl⟩
      · next hlook => exact ⟨_, .missing hexcluded hlook, rfl⟩
      · next hlook =>
          obtain ⟨location, entries, hlookup⟩ := isDirectory_of_look hlook
          obtain ⟨actions, hactions, hevents⟩ := completes_walk hwellFormed _ rfl hlookup
          rw [hlookup]
          exact ⟨actions, .directory hexcluded hlook (by simp) hactions, hevents⟩

/-! ### Nothing twice -/

/-- Whether an action asks something of a real directory. -/
def Action.isRequest : Action → Bool
  | .list _ => true
  | .visit _ _ => true
  | .event _ => false

/-- The real directory that an action asks something of. -/
def Action.directory : Action → Location
  | .list directory => directory
  | .visit directory _ => directory
  | .event _ => []

/-- The requests among some actions. -/
def requests (actions : List Action) : List Action := actions.filter Action.isRequest

@[simp] theorem requests_append (first second : List Action) :
    requests (first ++ second) = requests first ++ requests second :=
  List.filter_append ..

@[simp] theorem requests_list (directory : Location) (actions : List Action) :
    requests (.list directory :: actions) = .list directory :: requests actions := rfl

@[simp] theorem requests_visit (directory : Location) (name : String) (actions : List Action) :
    requests (.visit directory name :: actions) = .visit directory name :: requests actions := rfl

@[simp] theorem requests_event (event : Event) (actions : List Action) :
    requests (.event event :: actions) = requests actions := rfl

@[simp] theorem requests_nil : requests [] = [] := rfl

/-- The requests of a task differ, and go to directories where the task belongs: at or below what
its path leads to, and for visits at or below the entries that are still to be visited. -/
def Orderly (t : Traversal) : Task → List Action → Prop
  | .follow origin path, actions =>
    (requests actions).Nodup ∧ ∀ action ∈ requests actions, ∃ location tree,
      t.tree.lookup t.directory path = .present location tree ∧
      (origin = .entry → ¬t.tree.IsLink t.directory path) ∧ location <+: action.directory
  | .walk path, actions =>
    (requests actions).Nodup ∧ ∀ action ∈ requests actions, ∃ location tree,
      t.tree.lookup t.directory path = .present location tree ∧ location <+: action.directory
  | .visit path location names, actions =>
    ∀ tree, t.tree.lookup t.directory path = .present location tree → names.Nodup →
      (∀ name ∈ names, Tree.isName name = true) →
      (requests actions).Nodup ∧ ∀ action ∈ requests actions, ∃ name ∈ names,
        action = .visit location name ∨ location ++ [name] <+: action.directory

/-- Actions without requests are orderly. -/
theorem orderly_follow_of_requests {origin : Origin} {path : Path} {actions : List Action}
    (h : requests actions = []) : t.Orderly (.follow origin path) actions := by
  simp [Orderly, h]

theorem not_prefix_self (location : Location) (name : String) :
    ¬location ++ [name] <+: location := by
  intro h
  have hlength := h.length_le
  simp at hlength

/-- Different entries of a directory have nothing below them in common. -/
theorem eq_of_entries_above {location directory : Location} {name name' : String}
    (h : location ++ [name] <+: directory) (h' : location ++ [name'] <+: directory) :
    name = name' := by
  have hprefix : location ++ [name] <+: location ++ [name'] :=
    List.prefix_of_prefix_length_le h h' (by simp)
  have heq := hprefix.eq_of_length (by simp)
  simpa using heq

/-- The first of some entries, and then the others. -/
theorem orderly_next {path : Path} {location : Location} {name : String} {names : List String}
    {first rest : List Action} (hfirst : t.Orderly (.follow .entry (path.child name)) first)
    (hrest : t.Orderly (.visit path location names) rest) :
    t.Orderly (.visit path location (name :: names))
      (.visit location name :: (first ++ rest)) := by
  intro tree hlookup hnodup hnames
  obtain ⟨hname, hnodup⟩ := List.nodup_cons.1 hnodup
  obtain ⟨hproper, hnames⟩ := List.forall_mem_cons.1 hnames
  obtain ⟨hfirstNodup, hfirstWithin⟩ := hfirst
  obtain ⟨hrestNodup, hrestWithin⟩ := hrest tree hlookup hnodup hnames
  -- an entry that is no link is in its place in the directory
  have hbelow : ∀ action ∈ requests first, location ++ [name] <+: action.directory := by
    intro action haction
    obtain ⟨location', node, hchild, hnolink, hprefix⟩ := hfirstWithin action haction
    obtain ⟨sub, hentry, ⟨target, rfl⟩ | ⟨-, rfl⟩⟩ :=
      Tree.located_of_lookup_child hproper hlookup hchild
    · exact absurd ((Tree.isLink_child_iff hlookup name).2 ⟨target, hentry⟩) (hnolink rfl)
    · exact hprefix
  have hnew : Action.visit location name ∉ requests first ++ requests rest := by
    intro hmem
    rcases List.mem_append.1 hmem with hmem | hmem
    · exact not_prefix_self location name (hbelow _ hmem)
    · obtain ⟨other, hother, heq | hprefix⟩ := hrestWithin _ hmem
      · cases heq
        exact hname hother
      · exact not_prefix_self location other hprefix
  have hapart : ∀ action ∈ requests first, action ∉ requests rest := by
    intro action haction haction'
    have hprefix := hbelow action haction
    obtain ⟨other, hother, rfl | hprefix'⟩ := hrestWithin action haction'
    · exact not_prefix_self location name hprefix
    · rw [eq_of_entries_above hprefix hprefix'] at hname
      exact hname hother
  rw [requests_visit, requests_append]
  constructor
  · refine List.nodup_cons.2 ⟨hnew, List.nodup_append.2 ⟨hfirstNodup, hrestNodup, ?_⟩⟩
    rintro action haction _ haction' rfl
    exact hapart action haction haction'
  · intro action haction
    rcases List.mem_cons.1 haction with rfl | haction
    · exact ⟨name, List.mem_cons_self, Or.inl rfl⟩
    · rcases List.mem_append.1 haction with haction | haction
      · exact ⟨name, List.mem_cons_self, Or.inr (hbelow action haction)⟩
      · obtain ⟨other, hother, hcases⟩ := hrestWithin action haction
        exact ⟨other, List.mem_cons_of_mem name hother, hcases⟩

/-- A directory that is listed, and then its entries. -/
theorem orderly_listed (hwellFormed : t.tree.wellFormed = true) {path : Path} {location : Location}
    {entries : List (String × Tree)} {actions : List Action}
    (hlookup : t.tree.lookup t.directory path = .present location (.directory entries))
    (h : t.Orderly (.visit path location (Text.inOrder id (entries.map Prod.fst))) actions) :
    t.Orderly (.walk path) (.list location :: actions) := by
  obtain ⟨hnodup, hentries⟩ :=
    Tree.entriesWellFormed_iff.1 (Tree.wellFormed_of_lookup hwellFormed hlookup)
  have hperm := Text.inOrder_perm id (entries.map Prod.fst)
  have hnames : ∀ name ∈ Text.inOrder id (entries.map Prod.fst), Tree.isName name = true := by
    intro name hmem
    obtain ⟨entry, hentry, rfl⟩ := List.mem_map.1 (hperm.mem_iff.1 hmem)
    exact (hentries entry hentry).1
  obtain ⟨hrequests, hwithin⟩ := h _ hlookup (hperm.nodup_iff.2 hnodup) hnames
  rw [Orderly, requests_list]
  constructor
  · refine List.nodup_cons.2 ⟨?_, hrequests⟩
    intro hmem
    obtain ⟨name, -, heq | hprefix⟩ := hwithin _ hmem
    · cases heq
    · exact not_prefix_self location name hprefix
  · intro action haction
    refine ⟨location, _, hlookup, ?_⟩
    rcases List.mem_cons.1 haction with rfl | haction
    · exact List.prefix_rfl
    · obtain ⟨name, -, rfl | hprefix⟩ := hwithin action haction
      · exact List.prefix_rfl
      · exact (List.prefix_append location [name]).trans hprefix

/-- No directory is listed twice, and no entry is visited twice. -/
theorem Performs.orderly (hwellFormed : t.tree.wellFormed = true) {task : Task}
    {actions : List Action} (h : t.Performs task actions) : t.Orderly task actions := by
  induction h with
  | excluded _ => exact orderly_follow_of_requests rfl
  | unseen _ _ => exact orderly_follow_of_requests rfl
  | file _ _ => exact orderly_follow_of_requests rfl
  | directory _ _ hlink _ ih =>
      obtain ⟨hnodup, hwithin⟩ := ih
      refine ⟨hnodup, ?_⟩
      intro action haction
      obtain ⟨location, tree, hlookup, hprefix⟩ := hwithin action haction
      exact ⟨location, tree, hlookup, hlink, hprefix⟩
  | link _ _ _ => exact orderly_follow_of_requests rfl
  | missing _ _ => exact orderly_follow_of_requests rfl
  | passed _ _ => exact orderly_follow_of_requests rfl
  | @unlisted path location entries hlookup _ =>
      refine ⟨by simp, ?_⟩
      intro action haction
      cases List.mem_singleton.1 haction
      exact ⟨location, _, hlookup, List.prefix_rfl⟩
  | listed hlookup _ _ ih => exact orderly_listed hwellFormed hlookup ih
  | done => simp [Orderly]
  | next _ _ ihfirst ihrest => exact orderly_next ihfirst ihrest

theorem count_le_one_of_nodup_requests {actions : List Action} (h : (requests actions).Nodup)
    {action : Action} (haction : action.isRequest = true) : actions.count action ≤ 1 := by
  rw [← List.count_filter haction]
  exact List.nodup_iff_count_le_one.1 h action

/-- **A traversal comes to its end, and does nothing twice on the way.**  Whatever links the tree
holds and wherever an input path leads, following the rules from it comes to an end, in one way only
and with the events of the traversal; and on that way every real directory is listed at most once,
and every entry of one is visited at most once. -/
theorem traversal_ends_without_repeats (hwellFormed : t.tree.wellFormed = true) (path : Path) :
    ∃ actions, t.Performs (.follow .input path) actions ∧
      (∀ other, t.Performs (.follow .input path) other → other = actions) ∧
      actions.filterMap Action.event? = t.fromPath true path ∧
      ∀ directory, actions.count (.list directory) ≤ 1 ∧
        ∀ name, actions.count (.visit directory name) ≤ 1 := by
  obtain ⟨actions, hactions, hevents⟩ := completes_input hwellFormed path
  have hrequests : (requests actions).Nodup := (hactions.orderly hwellFormed).1
  refine ⟨actions, hactions, fun other hother => hactions.unique hother, hevents, ?_⟩
  intro directory
  exact ⟨count_le_one_of_nodup_requests hrequests rfl,
    fun name => count_le_one_of_nodup_requests hrequests rfl⟩

/-- An absolute input path that leads through an absolute link back to the working directory, which
holds a link to itself and two that lead to each other. -/
theorem traversal_ends_without_repeats_looped :
    let entries : List (String × Tree) :=
      [("d", .directory [("up", .link "/w/."), ("self", .link "/w/d/self"), ("f", .file [102])]),
        ("x", .link "y"), ("y", .link "/w/x")]
    let t : Traversal := { tree := .directory [("w", .directory entries)], directory := ["w"] }
    let path : Path := ⟨"/", ["w", "d", "up"]⟩
    t.tree.wellFormed = true ∧ t.look path = .ok .directory ∧
      Event.units (t.fromPath true path) = [⟨"/w/d/up/d/f", "f"⟩] ∧
      ∃ actions, t.Performs (.follow .input path) actions ∧
        actions.filterMap Action.event? = t.fromPath true path ∧
        actions.count (.list ["w"]) ≤ 1 ∧ actions.count (.visit ["w", "d"] "up") ≤ 1 := by
  intro entries t path
  have hwellFormed : t.tree.wellFormed = true := by decide
  obtain ⟨actions, hactions, -, hevents, hcounts⟩ := traversal_ends_without_repeats hwellFormed path
  exact ⟨hwellFormed, by decide +kernel, by decide +kernel, actions, hactions, hevents,
    (hcounts ["w"]).1, (hcounts ["w", "d"]).2 "up"⟩

end LineLint.Traversal
