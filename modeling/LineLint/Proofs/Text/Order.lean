/-
**Which order texts are put into.**

Texts that are sorted, each once, ascend, and only depend on which texts there are.

Main results:

* `LineLint.Text.pairwise_idxOf_eraseDups` — dropping repeated texts keeps the order in which they
  first occur;
* `LineLint.Text.pairwise_sortedOnce`, `LineLint.Text.sortedOnce_congr` — **sorted texts ascend, and
  do not depend on the order in which they came**.
-/

import LineLint.Text.Order
import Mathlib.Data.List.Induction
import Mathlib.Data.List.Sort

set_option relaxedAutoImplicit false
set_option autoImplicit false

namespace LineLint.Text

/-- Of items that are kept once each, the last one is new or there already. -/
theorem eraseDups_concat {α : Type} [BEq α] [LawfulBEq α] (items : List α) (last : α) :
    (items ++ [last]).eraseDups =
      if last ∈ items then items.eraseDups else items.eraseDups ++ [last] := by
  rw [List.eraseDups_append]
  split
  · next hlast => simp [List.removeAll, hlast]
  · next hlast => simp [List.removeAll, hlast, List.eraseDups_cons]

/-- Each of the texts once, in the order in which they first occur. -/
theorem pairwise_idxOf_eraseDups (texts : List String) :
    texts.eraseDups.Pairwise (fun a b => texts.idxOf a < texts.idxOf b) := by
  induction texts using List.reverseRecOn with
  | nil => exact List.Pairwise.nil
  | append_singleton texts last ih =>
      have hold {a : String} (ha : a ∈ texts) : (texts ++ [last]).idxOf a = texts.idxOf a :=
        List.idxOf_append_of_mem ha
      have hkeep : texts.eraseDups.Pairwise
          (fun a b => (texts ++ [last]).idxOf a < (texts ++ [last]).idxOf b) := by
        refine ih.imp_of_mem fun ha hb hlt => ?_
        rwa [hold (List.mem_eraseDups.1 ha), hold (List.mem_eraseDups.1 hb)]
      rw [eraseDups_concat]
      split
      · exact hkeep
      · next hlast =>
          -- a text that is new comes after all others
          refine List.pairwise_append.2 ⟨hkeep, List.pairwise_singleton _ _, fun a ha b hb => ?_⟩
          have ha := List.mem_eraseDups.1 ha
          have hlt := List.idxOf_lt_length_of_mem ha
          rw [List.mem_singleton.1 hb, hold ha, List.idxOf_append_of_notMem hlast]
          omega

/-- Sorted texts ascend. -/
theorem pairwise_sortedOnce (texts : List String) : (sortedOnce texts).Pairwise (· < ·) := by
  refine pairwise_lt_inOrder ?_
  rw [List.map_id_fun']
  refine (pairwise_idxOf_eraseDups texts).imp fun hlt heq => ?_
  rw [heq] at hlt
  exact Nat.lt_irrefl _ hlt

/-- Sorted texts only depend on which texts there are. -/
theorem sortedOnce_congr {texts texts' : List String} (h : ∀ text, text ∈ texts ↔ text ∈ texts') :
    sortedOnce texts = sortedOnce texts' := by
  refine (pairwise_sortedOnce texts).eq_of_mem_iff (pairwise_sortedOnce texts') fun text => ?_
  rw [mem_sortedOnce, mem_sortedOnce, h]

end LineLint.Text
