/-
**Looking up the entries of a directory.**

Following a path that goes on behind another one first does everything that the other one does, and
then goes on with the links that are left.  So what a directory holds under a name decides what is
found one component further: the entry itself, unless it is a link.

Main definitions:

* `LineLint.Tree.wellFormed` — the names in every directory differ, and are names;
* `LineLint.Tree.IsFile`, `LineLint.Tree.IsDirectory`, `LineLint.Tree.IsLink` — what a path is.

Main results:

* `LineLint.Tree.follow_append` — a longer path goes on where a shorter one ends;
* `LineLint.Tree.located_of_lookup_child`, `LineLint.Tree.entry?_of_lookup_child` — **what is found
  one component further is an entry of the directory, or behind a link that is one**.
-/

import LineLint.Tree.Lookup

set_option relaxedAutoImplicit false
set_option autoImplicit false

namespace LineLint.Tree

variable {root tree : Tree} {directory location location' : Location}

/-- Induction over the entries of directories. -/
@[elab_as_elim]
theorem inductionOn {motive : Tree → Prop} (tree : Tree) (file : ∀ content, motive (.file content))
    (link : ∀ target, motive (.link target)) (pipe : motive .pipe)
    (directory : ∀ entries, (∀ entry ∈ entries, motive entry.2) → motive (.directory entries)) :
    motive tree := by
  cases tree with
  | file content => exact file content
  | link target => exact link target
  | pipe => exact pipe
  | directory entries =>
      exact directory entries fun entry _ => inductionOn entry.2 file link pipe directory
termination_by sizeOf tree
decreasing_by
  have hentry : sizeOf entry < sizeOf entries := List.sizeOf_lt_of_mem ‹entry ∈ entries›
  have htree : sizeOf entry.2 < sizeOf entry := by
    cases entry
    simp only [Prod.mk.sizeOf_spec]
    omega
  rw [Tree.directory.sizeOf_spec]
  omega

/-! ### Well-formed trees -/

/-- Whether a text can be the name of an entry: it has no slash, and leads somewhere else, but not
back. -/
def isName (name : String) : Bool :=
  !name.toList.contains '/' && !stays name && name != ".."

theorem isName_iff {name : String} :
    isName name = true ↔ '/' ∉ name.toList ∧ stays name = false ∧ name ≠ ".." := by
  simp [isName, and_assoc]

mutual

/-- Whether the names in every directory of a tree differ from each other, and are names. -/
def wellFormed : Tree → Bool
  | .file _ => true
  | .directory entries => entriesWellFormed entries
  | .link _ => true
  | .pipe => true
termination_by structural tree => tree

/-- Whether the names of some entries differ, and are names, and their trees are well-formed. -/
def entriesWellFormed : List (String × Tree) → Bool
  | [] => true
  | entry :: rest =>
    entryWellFormed entry && !(rest.map Prod.fst).contains entry.1 && entriesWellFormed rest
termination_by structural entries => entries

/-- Whether the name of an entry is one, and its tree is well-formed. -/
def entryWellFormed : String × Tree → Bool
  | (name, tree) => isName name && wellFormed tree
termination_by structural entry => entry

end

theorem entriesWellFormed_iff {entries : List (String × Tree)} :
    entriesWellFormed entries = true ↔ (entries.map Prod.fst).Nodup ∧
      ∀ entry ∈ entries, isName entry.1 = true ∧ entry.2.wellFormed = true := by
  induction entries with
  | nil => simp [entriesWellFormed]
  | cons entry rest ih =>
      rw [entriesWellFormed, Bool.and_eq_true, Bool.and_eq_true, ih, List.map_cons, List.nodup_cons,
        List.forall_mem_cons, entryWellFormed, Bool.and_eq_true, Bool.not_eq_true',
        ← Bool.not_eq_true, List.contains_iff_mem]
      exact ⟨fun ⟨⟨hentry, hnew⟩, hnodup, hrest⟩ => ⟨⟨hnew, hnodup⟩, hentry, hrest⟩,
        fun ⟨⟨hnew, hnodup⟩, hentry, hrest⟩ => ⟨⟨hentry, hnew⟩, hnodup, hrest⟩⟩

theorem mem_of_lookup_entries {κ α : Type} [BEq κ] [LawfulBEq κ] {entries : List (κ × α)}
    {name : κ} {sub : α} (h : entries.lookup name = some sub) : (name, sub) ∈ entries := by
  obtain ⟨before, after, rfl, -⟩ := List.lookup_eq_some_iff.1 h
  simp

theorem lookup_entries_of_mem {κ α : Type} [BEq κ] [LawfulBEq κ] {entries : List (κ × α)}
    (hnodup : (entries.map Prod.fst).Nodup) {name : κ} {sub : α}
    (h : (name, sub) ∈ entries) : entries.lookup name = some sub := by
  induction entries with
  | nil => cases h
  | cons entry rest ih =>
      obtain ⟨hnew, hnodup⟩ := List.nodup_cons.1 hnodup
      rcases List.mem_cons.1 h with rfl | h
      · rw [List.lookup_cons, beq_self_eq_true]
      · have hne : (name == entry.1) = false := by
          rw [beq_eq_false_iff_ne]
          rintro rfl
          exact hnew (List.mem_map.2 ⟨_, h, rfl⟩)
        rw [List.lookup_cons, hne]
        exact ih hnodup h

theorem wellFormed_entry (h : root.wellFormed = true) {name : String}
    (hentry : root.entry? name = some tree) : tree.wellFormed = true := by
  cases root with
  | directory entries =>
      exact ((entriesWellFormed_iff.1 h).2 _ (mem_of_lookup_entries hentry)).2
  | file => cases hentry
  | link => cases hentry
  | pipe => cases hentry

theorem wellFormed_of_at? (h : root.wellFormed = true) (hat : root.at? location = some tree) :
    tree.wellFormed = true := by
  induction location generalizing root with
  | nil =>
      rw [at?_nil] at hat
      cases hat
      exact h
  | cons name rest ih =>
      rw [at?_cons] at hat
      obtain ⟨inner, hinner, hat⟩ := Option.bind_eq_some_iff.1 hat
      exact ih (wellFormed_entry h hinner) hat

/-! ### Longer paths -/

/-- Nothing is found, whatever steps come next, unless there are none. -/
def Fails (go : List String → Found) : Prop :=
  ∀ rest location tree, go rest ≠ .present location tree

/-- What following the first step does, whatever comes after it. -/
theorem exists_descend_cons (root : Tree) (onward : Location → List String → Found)
    (location : Location) (name : String) :
    ∃ go : List String → Found, (∀ rest, descend root onward location (name :: rest) = go rest) ∧
      (Fails go ∨ (∃ location', go = descend root onward location') ∨
        ∃ next target, go = fun rest => onward next (steps target ++ rest)) := by
  cases hat : root.at? location with
  | none =>
      exact ⟨fun _ => .absent, fun rest => by simp only [descend, hat], Or.inl fun _ _ _ => nofun⟩
  | some tree =>
      by_cases hdirectory : tree.isDirectory = true
      · by_cases hstays : stays name = true
        · refine ⟨descend root onward location, fun rest => ?_, Or.inr (Or.inl ⟨_, rfl⟩)⟩
          simp [descend, hat, hdirectory, hstays]
        · by_cases hback : name = ".."
          · refine ⟨descend root onward location.dropLast, fun rest => ?_, Or.inr (Or.inl ⟨_, rfl⟩)⟩
            subst hback
            simp [descend, hat, hdirectory, hstays]
          · by_cases hlong : isTooLong name = true
            · refine ⟨fun _ => .nameTooLong, fun rest => ?_, Or.inl fun _ _ _ => nofun⟩
              simp [descend, hat, hdirectory, hstays, hback, hlong]
            · cases hentry : tree.entry? name with
              | none =>
                  refine ⟨fun rest =>
                    if rest.isEmpty then .vacant (location ++ [name]) else .absent,
                    fun rest => ?_, Or.inl fun rest _ _ => ?_⟩
                  · simp [descend, hat, hdirectory, hstays, hback, hlong, hentry]
                  · dsimp only
                    split <;> exact nofun
              | some sub =>
                  have hinner (hlink : ∀ target, sub ≠ .link target) (rest : List String) :
                      descend root onward location (name :: rest) =
                        descend root onward (location ++ [name]) rest := by
                    cases sub with
                    | link target => exact absurd rfl (hlink target)
                    | file => simp [descend, hat, hdirectory, hstays, hback, hlong, hentry]
                    | directory => simp [descend, hat, hdirectory, hstays, hback, hlong, hentry]
                    | pipe => simp [descend, hat, hdirectory, hstays, hback, hlong, hentry]
                  cases sub with
                  | link target =>
                      refine ⟨fun rest => onward (startOf location target) (steps target ++ rest),
                        fun rest => ?_, Or.inr (Or.inr ⟨_, target, rfl⟩)⟩
                      simp [descend, hat, hdirectory, hstays, hback, hlong, hentry]
                  | file => exact ⟨_, hinner fun _ => nofun, Or.inr (Or.inl ⟨_, rfl⟩)⟩
                  | directory => exact ⟨_, hinner fun _ => nofun, Or.inr (Or.inl ⟨_, rfl⟩)⟩
                  | pipe => exact ⟨_, hinner fun _ => nofun, Or.inr (Or.inl ⟨_, rfl⟩)⟩
      · refine ⟨fun _ => .notDirectory, fun rest => ?_, Or.inl fun _ _ _ => nofun⟩
        simp [descend, hat, hdirectory]

/-- Where following components ends, there is what it finds. -/
theorem at?_of_descend {onward : Location → List String → Found} {parts : List String}
    (honward : ∀ location parts, onward location parts = .present location' tree →
      root.at? location' = some tree)
    (h : descend root onward location parts = .present location' tree) :
    root.at? location' = some tree := by
  induction parts generalizing location with
  | nil =>
      unfold descend at h
      split at h
      · cases h
      · next hat =>
          cases h
          exact hat
  | cons name rest ih =>
      obtain ⟨go, hgo, hfails | ⟨next, rfl⟩ | ⟨next, target, rfl⟩⟩ :=
        exists_descend_cons root onward location name
      · exact absurd ((hgo rest).symm.trans h) (hfails _ _ _)
      · exact ih ((hgo rest).symm.trans h)
      · exact honward _ _ ((hgo rest).symm.trans h)

theorem at?_of_follow {links : Nat} {parts : List String}
    (h : follow root links location parts = .present location' tree) :
    root.at? location' = some tree := by
  induction links generalizing location parts with
  | zero => exact at?_of_descend (fun _ _ habsent => by cases habsent) h
  | succ links ih => exact at?_of_descend (fun _ _ honward => ih honward) h

theorem descend_append {onward : Location → List String → Found} {links : Nat}
    {parts more : List String} (hself : descend root onward = follow root links)
    (honward : ∀ location parts, onward location parts = .present location' tree →
      ∃ left, onward location (parts ++ more) = follow root left location' more)
    (h : descend root onward location parts = .present location' tree) :
    ∃ left, descend root onward location (parts ++ more) = follow root left location' more := by
  induction parts generalizing location with
  | nil =>
      unfold descend at h
      split at h
      · cases h
      · cases h
        exact ⟨links, by rw [List.nil_append, hself]⟩
  | cons name rest ih =>
      obtain ⟨go, hgo, hfails | ⟨next, rfl⟩ | ⟨next, target, rfl⟩⟩ :=
        exists_descend_cons root onward location name
      · exact absurd ((hgo rest).symm.trans h) (hfails _ _ _)
      · rw [List.cons_append, hgo]
        exact ih ((hgo rest).symm.trans h)
      · -- the target of a link comes before what is left, and more comes after that
        obtain ⟨left, hleft⟩ := honward _ _ ((hgo rest).symm.trans h)
        rw [List.append_assoc] at hleft
        exact ⟨left, (hgo _).trans hleft⟩

/-- A longer path goes on where a shorter one ends, with the links that are left. -/
theorem follow_append {links : Nat} {parts : List String} (more : List String)
    (h : follow root links location parts = .present location' tree) :
    ∃ left, follow root links location (parts ++ more) = follow root left location' more := by
  -- induction on the links that are left, each of which begins a new descent
  induction links generalizing location parts with
  | zero => exact @descend_append _ _ _ _ _ 0 _ _ rfl (fun _ _ habsent => by cases habsent) h
  | succ links ih => exact @descend_append _ _ _ _ _ (links + 1) _ _ rfl (fun _ _ h => ih h) h

/-! ### Entries -/

/-- What a path leads to is found by following its components. -/
theorem follow_of_lookup {path : Path}
    (h : root.lookup directory path = .present location tree) :
    follow root linkLimit (path.start directory) path.parts = .present location tree := by
  unfold lookup at h
  split at h
  · cases h
  · split at h
    · cases h
    · exact h

theorem wellFormed_of_lookup (hroot : root.wellFormed = true) {path : Path}
    (h : root.lookup directory path = .present location tree) : tree.wellFormed = true :=
  wellFormed_of_at? hroot (at?_of_follow (follow_of_lookup h))

/-- Following a single name from a directory finds its entry, unless that is a link. -/
theorem entry?_of_descend {onward : Location → List String → Found} {name : String} {node : Tree}
    (hat : root.at? location = some tree) (hname : isName name = true)
    (h : descend root onward location [name] = .present location' node) :
    ∃ sub, tree.entry? name = some sub ∧
      ((∃ target, sub = .link target) ∨ node = sub ∧ location' = location ++ [name]) := by
  obtain ⟨-, hstays, hback⟩ := isName_iff.1 hname
  simp only [descend, hat, hstays, if_neg hback, Bool.false_eq_true, if_false] at h
  split at h
  · cases h
  · split at h
    · cases h
    · split at h
      · split at h <;> cases h
      · next target hentry => exact ⟨_, hentry, Or.inl ⟨target, rfl⟩⟩
      · next sub _ hentry =>
          rw [at?_append, hat, Option.bind_some, at?_cons, hentry, Option.bind_some, at?_nil] at h
          cases h
          exact ⟨_, hentry, Or.inr ⟨rfl, rfl⟩⟩

/-- Following a single name from a directory finds its entry, unless that is a link. -/
theorem entry?_of_follow {links : Nat} {name : String} {node : Tree}
    (hat : root.at? location = some tree) (hname : isName name = true)
    (h : follow root links location [name] = .present location' node) :
    ∃ sub, tree.entry? name = some sub ∧
      ((∃ target, sub = .link target) ∨ node = sub ∧ location' = location ++ [name]) := by
  cases links with
  | zero => exact entry?_of_descend hat hname h
  | succ links => exact entry?_of_descend hat hname h

/-- What is found one component further is an entry of the directory, in its place there, or behind
a link that is one. -/
theorem located_of_lookup_child {path : Path} {name : String} {node : Tree}
    (hname : isName name = true) (h : root.lookup directory path = .present location tree)
    (hchild : root.lookup directory (path.child name) = .present location' node) :
    ∃ sub, tree.entry? name = some sub ∧
      ((∃ target, sub = .link target) ∨ node = sub ∧ location' = location ++ [name]) := by
  have hfollow := follow_of_lookup h
  obtain ⟨links, hlinks⟩ := follow_append [name] hfollow
  have hsingle : follow root links location [name] = .present location' node :=
    hlinks.symm.trans (follow_of_lookup hchild)
  exact entry?_of_follow (at?_of_follow hfollow) hname hsingle

/-- **What is found one component further is an entry of the directory, or behind a link that is
one.** -/
theorem entry?_of_lookup_child {path : Path} {name : String} {node : Tree}
    (hname : isName name = true) (h : root.lookup directory path = .present location tree)
    (hchild : root.lookup directory (path.child name) = .present location' node) :
    ∃ sub, tree.entry? name = some sub ∧ ((∃ target, sub = .link target) ∨ node = sub) := by
  obtain ⟨sub, hentry, hcases⟩ := located_of_lookup_child hname h hchild
  exact ⟨sub, hentry, hcases.imp_right And.left⟩

/-! ### What a path is -/

/-- The path leads to a regular file, through links if need be. -/
def IsFile (root : Tree) (directory : Location) (path : Path) (content : List UInt8) : Prop :=
  ∃ location, root.lookup directory path = .present location (.file content)

/-- The path leads to a directory, through links if need be. -/
def IsDirectory (root : Tree) (directory : Location) (path : Path) : Prop :=
  ∃ location entries, root.lookup directory path = .present location (.directory entries)

/-- The path itself is that of a link: its last component is one in the directory before it. -/
def IsLink (root : Tree) (directory : Location) (path : Path) : Prop :=
  ∃ parent name location tree target, path = Path.child parent name ∧
    root.lookup directory parent = .present location tree ∧
    tree.entry? name = some (.link target)

theorem IsFile.unique {path : Path} {content content' : List UInt8}
    (h : root.IsFile directory path content) (h' : root.IsFile directory path content') :
    content = content' := by
  obtain ⟨location, hlookup⟩ := h
  obtain ⟨location', hlookup'⟩ := h'
  cases hlookup.symm.trans hlookup'
  rfl

theorem IsFile.not_isDirectory {path : Path} {content : List UInt8}
    (h : root.IsFile directory path content) : ¬root.IsDirectory directory path := by
  rintro ⟨location', entries, hlookup'⟩
  obtain ⟨location, hlookup⟩ := h
  cases hlookup.symm.trans hlookup'

theorem isLink_child_iff {path : Path} (h : root.lookup directory path = .present location tree)
    (name : String) :
    root.IsLink directory (path.child name) ↔ ∃ target, tree.entry? name = some (.link target) := by
  constructor
  · rintro ⟨parent, name', location', tree', target, hpath, hlookup, hentry⟩
    obtain ⟨rfl, rfl⟩ := Path.child_inj hpath
    cases h.symm.trans hlookup
    exact ⟨target, hentry⟩
  · rintro ⟨target, hentry⟩
    exact ⟨path, name, location, tree, target, rfl, h, hentry⟩

end LineLint.Tree
