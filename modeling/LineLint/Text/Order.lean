/-
**Putting things in the order of their names.**

Names are compared by their code points, from the left; things with the same name keep their order.

Main definitions:

* `LineLint.Text.insertInOrder` — one thing put into its place among things in order;
* `LineLint.Text.inOrder` — things in the order of their names;
* `LineLint.Text.sortedOnce` — texts in order, each once.

Main results:

* `LineLint.Text.inOrder_perm` — nothing is lost and nothing is added;
* `LineLint.Text.pairwise_inOrder`, `LineLint.Text.pairwise_lt_inOrder` — the names never descend,
  and ascend if they differ;
* `LineLint.Text.inOrder_map` — the order depends on the names alone;
* `LineLint.Text.mem_sortedOnce` — sorting keeps the texts.
-/

set_option relaxedAutoImplicit false
set_option autoImplicit false

namespace LineLint.Text

variable {α : Type}

/-- One thing put into its place among things in the order of their names, before those with the
same name. -/
def insertInOrder (name : α → String) (item : α) : List α → List α
  | [] => [item]
  | other :: rest =>
    if name item ≤ name other then item :: other :: rest
    else other :: insertInOrder name item rest

/-- Things in the order of their names. -/
def inOrder (name : α → String) : List α → List α
  | [] => []
  | item :: rest => insertInOrder name item (inOrder name rest)

/-- Texts in order, each once. -/
def sortedOnce (texts : List String) : List String := inOrder id texts.eraseDups

theorem insertInOrder_perm (name : α → String) (item : α) (items : List α) :
    (insertInOrder name item items).Perm (item :: items) := by
  induction items with
  | nil => exact List.Perm.refl _
  | cons other rest ih =>
    unfold insertInOrder
    split
    · exact List.Perm.refl _
    · exact (ih.cons other).trans (List.Perm.swap item other rest)

theorem inOrder_perm (name : α → String) (items : List α) :
    (inOrder name items).Perm items := by
  induction items with
  | nil => exact List.Perm.refl _
  | cons item rest ih => exact (insertInOrder_perm name item _).trans (ih.cons item)

theorem pairwise_insertInOrder (name : α → String) (item : α) {items : List α}
    (h : items.Pairwise (fun a b => name a ≤ name b)) :
    (insertInOrder name item items).Pairwise (fun a b => name a ≤ name b) := by
  induction items with
  | nil => simp [insertInOrder]
  | cons other rest ih =>
    have hother := List.pairwise_cons.mp h
    unfold insertInOrder
    split
    · next hle =>
      refine List.pairwise_cons.mpr ⟨?_, h⟩
      intro b hb
      rcases List.mem_cons.mp hb with rfl | hb
      · exact hle
      · exact String.le_trans hle (hother.1 b hb)
    · next hle =>
      refine List.pairwise_cons.mpr ⟨?_, ih hother.2⟩
      intro b hb
      rcases List.mem_cons.mp ((insertInOrder_perm name item rest).mem_iff.mp hb) with rfl | hb
      · exact (String.le_total (name b) (name other)).resolve_left hle
      · exact hother.1 b hb

theorem pairwise_inOrder (name : α → String) (items : List α) :
    (inOrder name items).Pairwise (fun a b => name a ≤ name b) := by
  induction items with
  | nil => exact List.Pairwise.nil
  | cons item rest ih => exact pairwise_insertInOrder name item ih

/-- Names that differ ascend. -/
theorem pairwise_lt_inOrder {name : α → String} {items : List α}
    (hnodup : (items.map name).Nodup) :
    (inOrder name items).Pairwise (fun a b => name a < name b) := by
  have hnodup' := ((inOrder_perm name items).map name).nodup_iff.mpr hnodup
  have hne := List.pairwise_map.mp (List.nodup_iff_pairwise_ne.mp hnodup')
  refine ((pairwise_inOrder name items).and hne).imp fun h => ?_
  exact Decidable.byContradiction fun hlt => h.2 (String.le_antisymm h.1 hlt)

/-- What stands for a thing of the same name goes into the same place. -/
theorem insertInOrder_map {β : Type} {name : α → String} {name' : β → String} {f : α → β}
    (h : ∀ a, name' (f a) = name a) (item : α) (items : List α) :
    insertInOrder name' (f item) (items.map f) = (insertInOrder name item items).map f := by
  induction items with
  | nil => rfl
  | cons other rest ih =>
    simp only [List.map_cons, insertInOrder, h]
    split
    · rfl
    · rw [ih, List.map_cons]

theorem inOrder_map {β : Type} {name : α → String} {name' : β → String} {f : α → β}
    (h : ∀ a, name' (f a) = name a) (items : List α) :
    inOrder name' (items.map f) = (inOrder name items).map f := by
  induction items with
  | nil => rfl
  | cons item rest ih => rw [List.map_cons, inOrder, ih, insertInOrder_map h, inOrder]

@[simp] theorem mem_sortedOnce (text : String) (texts : List String) :
    text ∈ sortedOnce texts ↔ text ∈ texts := by
  rw [sortedOnce, (inOrder_perm id texts.eraseDups).mem_iff, List.mem_eraseDups]

end LineLint.Text
