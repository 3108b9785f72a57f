/-
**The order in which directories list their entries cannot be seen by looking up paths.**

Two trees are alike if they have the same kind of thing at every location.  Well-formed trees that
are alike differ in nothing but the order in which their directories list the entries.

Main definitions:

* `LineLint.Tree.Kind`, `LineLint.Tree.Alike` — trees with the same at every location;
* `LineLint.Tree.Found.Alike` — the same was found in two trees.

Main results:

* `LineLint.Tree.alike_of_perm` — listing the entries in another order gives an alike tree;
* `LineLint.Tree.alike_lookup` — **paths lead to the same in trees that are alike**.
-/

import LineLint.Proofs.Tree.Lookup

set_option relaxedAutoImplicit false
set_option autoImplicit false

namespace LineLint.Tree

/-- What is at a location, the entries of a directory left out. -/
inductive Kind where
  | file (content : List UInt8)
  | directory
  | link (target : String)
  | pipe

/-- The kind of a tree. -/
def kind : Tree → Kind
  | .file content => .file content
  | .directory _ => .directory
  | .link target => .link target
  | .pipe => .pipe

/-- Two trees have the same kind of thing at every location. -/
def Alike (a b : Tree) : Prop :=
  ∀ location, (a.at? location).map kind = (b.at? location).map kind

variable {a b : Tree} {directory : Location}

theorem Alike.refl (a : Tree) : a.Alike a := fun _ => rfl

theorem Alike.symm (h : a.Alike b) : b.Alike a := fun location => (h location).symm

theorem Alike.kind_eq (h : a.Alike b) : a.kind = b.kind := by
  simpa using h []

/-- What trees that are alike have at a location is alike again. -/
theorem Alike.at? (h : a.Alike b) (location : Location) :
    a.at? location = none ∧ b.at? location = none ∨
      ∃ a' b', a.at? location = some a' ∧ b.at? location = some b' ∧ a'.Alike b' := by
  have hkind := h location
  cases ha : a.at? location with
  | none =>
      cases hb : b.at? location with
      | none => exact Or.inl ⟨rfl, rfl⟩
      | some b' => simp [ha, hb] at hkind
  | some a' =>
      cases hb : b.at? location with
      | none => simp [ha, hb] at hkind
      | some b' =>
          refine Or.inr ⟨a', b', rfl, rfl, fun further => ?_⟩
          have hfurther := h (location ++ further)
          rwa [at?_append, at?_append, ha, hb] at hfurther

theorem at?_singleton (tree : Tree) (name : String) : tree.at? [name] = tree.entry? name := by
  rw [at?_cons]
  cases tree.entry? name <;> simp

theorem Alike.entry? (h : a.Alike b) (name : String) :
    a.entry? name = none ∧ b.entry? name = none ∨
      ∃ a' b', a.entry? name = some a' ∧ b.entry? name = some b' ∧ a'.Alike b' := by
  rw [← at?_singleton, ← at?_singleton]
  exact h.at? [name]

theorem Alike.isDirectory_eq (h : a.Alike b) : a.isDirectory = b.isDirectory := by
  have hkind := h.kind_eq
  cases a <;> cases b <;> first | rfl | cases hkind

/-- Listing the entries in another order gives an alike tree. -/
theorem alike_of_perm {entries entries' : List (String × Tree)} (h : entries.Perm entries')
    (hnodup : (entries.map Prod.fst).Nodup) :
    (Tree.directory entries).Alike (.directory entries') := by
  have hnodup' : (entries'.map Prod.fst).Nodup := (h.map _).nodup_iff.1 hnodup
  have hlookup (name : String) : entries.lookup name = entries'.lookup name := by
    refine Option.ext fun sub => ⟨fun hsub => ?_, fun hsub => ?_⟩
    · exact lookup_entries_of_mem hnodup' (h.mem_iff.1 (mem_of_lookup_entries hsub))
    · exact lookup_entries_of_mem hnodup (h.mem_iff.2 (mem_of_lookup_entries hsub))
  intro location
  cases location with
  | nil => simp [kind]
  | cons name rest => rw [at?_cons, at?_cons, Tree.entry?, Tree.entry?, hlookup]

/-! ### Looking up paths -/

/-- The same was found in two trees. -/
inductive Found.Alike : Found → Found → Prop
  | present (location : Location) {a b : Tree} : a.Alike b →
      Found.Alike (.present location a) (.present location b)
  | vacant (location : Location) : Found.Alike (.vacant location) (.vacant location)
  | absent : Found.Alike .absent .absent
  | notDirectory : Found.Alike .notDirectory .notDirectory
  | nameTooLong : Found.Alike .nameTooLong .nameTooLong
  | tooManyLinks : Found.Alike .tooManyLinks .tooManyLinks

theorem alike_descend (h : a.Alike b) {onward onward' : Location → List String → Found}
    (honward : ∀ location parts, (onward location parts).Alike (onward' location parts))
    (location : Location) (parts : List String) :
    (descend a onward location parts).Alike (descend b onward' location parts) := by
  induction parts generalizing location with
  | nil =>
      unfold descend
      rcases h.at? location with ⟨ha, hb⟩ | ⟨a', b', ha, hb, halike⟩
      · rw [ha, hb]
        exact .absent
      · rw [ha, hb]
        exact .present location halike
  | cons name rest ih =>
      unfold descend
      rcases h.at? location with ⟨ha, hb⟩ | ⟨a', b', ha, hb, halike⟩
      · rw [ha, hb]
        exact .absent
      · simp only [ha, hb, halike.isDirectory_eq]
        split
        · exact .notDirectory
        · split
          · exact ih _
          · split
            · exact ih _
            · split
              · exact .nameTooLong
              · rcases halike.entry? name with ⟨hsub, hsub'⟩ | ⟨sub, sub', hsub, hsub', halike⟩
                · rw [hsub, hsub']
                  dsimp only
                  split
                  · exact .vacant _
                  · exact .absent
                · -- both entries are links with the same target, or neither is a link
                  have hkind := halike.kind_eq
                  rw [hsub, hsub']
                  cases sub with
                  | link target =>
                      cases sub' with
                      | link target' =>
                          cases hkind
                          exact honward _ _
                      | file => cases hkind
                      | directory => cases hkind
                      | pipe => cases hkind
                  | file content => cases sub' <;> first | exact ih _ | cases hkind
                  | directory entries => cases sub' <;> first | exact ih _ | cases hkind
                  | pipe => cases sub' <;> first | exact ih _ | cases hkind

theorem alike_follow (h : a.Alike b) (links : Nat) (location : Location) (parts : List String) :
    (follow a links location parts).Alike (follow b links location parts) := by
  induction links generalizing location parts with
  | zero => exact alike_descend h (fun _ _ => .tooManyLinks) location parts
  | succ links ih => exact alike_descend h ih location parts

/-- **Paths lead to the same in trees that are alike.** -/
theorem alike_lookup (h : a.Alike b) (directory : Location) (path : Path) :
    (a.lookup directory path).Alike (b.lookup directory path) := by
  unfold lookup
  split
  · exact .absent
  · split
    · exact .nameTooLong
    · exact alike_follow h linkLimit _ path.parts

/-- What is found in one tree is found in another one that is alike. -/
theorem Alike.exists_lookup (h : a.Alike b) {path : Path} {location : Location} {tree : Tree}
    (hlookup : a.lookup directory path = .present location tree) :
    ∃ tree', b.lookup directory path = .present location tree' ∧ tree.Alike tree' := by
  have hfound := alike_lookup h directory path
  rw [hlookup] at hfound
  generalize b.lookup directory path = found at hfound
  cases hfound with
  | present _ halike => exact ⟨_, rfl, halike⟩

theorem Alike.isFile (h : a.Alike b) {path : Path} {content : List UInt8}
    (hfile : a.IsFile directory path content) : b.IsFile directory path content := by
  obtain ⟨location, hlookup⟩ := hfile
  obtain ⟨tree', hlookup', halike⟩ := h.exists_lookup hlookup
  have hkind := halike.kind_eq
  cases tree' with
  | file content' =>
      cases hkind
      exact ⟨location, hlookup'⟩
  | directory => cases hkind
  | link => cases hkind
  | pipe => cases hkind

theorem Alike.isDirectory (h : a.Alike b) {path : Path}
    (hdirectory : a.IsDirectory directory path) : b.IsDirectory directory path := by
  obtain ⟨location, entries, hlookup⟩ := hdirectory
  obtain ⟨tree', hlookup', halike⟩ := h.exists_lookup hlookup
  have hkind := halike.kind_eq
  cases tree' with
  | directory entries' => exact ⟨location, entries', hlookup'⟩
  | file => cases hkind
  | link => cases hkind
  | pipe => cases hkind

theorem Alike.isLink (h : a.Alike b) {path : Path} (hlink : a.IsLink directory path) :
    b.IsLink directory path := by
  obtain ⟨parent, name, location, tree, target, hpath, hlookup, hentry⟩ := hlink
  obtain ⟨tree', hlookup', halike⟩ := h.exists_lookup hlookup
  rcases halike.entry? name with ⟨hnone, -⟩ | ⟨sub, sub', hsub, hsub', halike⟩
  · cases hnone.symm.trans hentry
  · cases hsub.symm.trans hentry
    have hkind := halike.kind_eq
    cases sub' with
    | link target' => exact ⟨parent, name, location, tree', target', hpath, hlookup', hsub'⟩
    | file => cases hkind
    | directory => cases hkind
    | pipe => cases hkind

end LineLint.Tree
