/-
**The same fallible step for every item of a list.**

Such a list of steps succeeds if every one of them does, and then gives what they give, in order.
The recursions of the program that stop at the first fault are all of this kind.

Main results:

* `LineLint.exists_of_bind_eq_ok` — where a step after another succeeds, both do;
* `LineLint.error_of_bind_eq_error` — where it fails, one of them does;
* `LineLint.mapM_eq_ok_iff` — what the steps give, item by item;
* `LineLint.isOk_mapM` — the steps succeed if each of them does;
* `LineLint.isOk_bind_ok`, `LineLint.isOk_bind_bind_ok` — success of one step, or of two, whose
  results go into a function.
-/

import Mathlib.Data.List.Forall2

set_option relaxedAutoImplicit false
set_option autoImplicit false

namespace LineLint

variable {ε α β : Type}

@[simp] theorem isOk_ok (a : α) : (Except.ok a : Except ε α).isOk = true := rfl

@[simp] theorem isOk_error (e : ε) : (Except.error e : Except ε α).isOk = false := rfl

theorem isOk_eq_true_iff {result : Except ε α} : result.isOk = true ↔ ∃ a, result = .ok a := by
  cases result <;> simp

theorem isOk_eq_false_iff {result : Except ε α} : result.isOk = false ↔ ∃ e, result = .error e := by
  cases result <;> simp

/-- Where a step after another succeeds, both do. -/
theorem exists_of_bind_eq_ok {first : Except ε α} {next : α → Except ε β} {b : β}
    (h : first >>= next = .ok b) : ∃ a, first = .ok a ∧ next a = .ok b := by
  cases first with
  | error e => cases h
  | ok a => exact ⟨a, rfl, h⟩

/-- Where a step after another fails, one of the two does. -/
theorem error_of_bind_eq_error {first : Except ε α} {next : α → Except ε β} {e : ε}
    (h : first >>= next = .error e) :
    first = .error e ∨ ∃ a, first = .ok a ∧ next a = .error e := by
  cases first with
  | error fault =>
      cases h
      exact Or.inl rfl
  | ok a => exact Or.inr ⟨a, rfl, h⟩

/-- Going on with a function changes nothing about success. -/
@[simp] theorem isOk_bind_ok (result : Except ε α) (f : α → β) :
    (result >>= fun a => .ok (f a)).isOk = result.isOk := by
  cases result <;> rfl

/-- Two steps, of which the second does not look at the first, succeed if both do. -/
theorem isOk_bind_bind_ok {γ : Type} (first : Except ε α) (second : Except ε β) (f : α → β → γ) :
    (first >>= fun a => second >>= fun b => .ok (f a b)).isOk = (first.isOk && second.isOk) := by
  cases first <;> cases second <;> rfl

/-- Steps for all items give, item by item, what each of them gives. -/
theorem mapM_eq_ok_iff {f : α → Except ε β} {items : List α} {results : List β} :
    items.mapM f = .ok results ↔ List.Forall₂ (fun a b => f a = .ok b) items results := by
  induction items generalizing results with
  | nil => simp [pure, Except.pure, eq_comm]
  | cons item items ih =>
      rw [List.mapM_cons, List.forall₂_cons_left_iff]
      cases hitem : f item with
      | error e => simp [bind, Except.bind]
      | ok first =>
          cases hitems : items.mapM f with
          | error e => simp [bind, Except.bind, ← ih, hitems]
          | ok rest =>
              simp only [bind, Except.bind, pure, Except.pure, ← ih, hitems, Except.ok.injEq]
              constructor
              · rintro rfl
                exact ⟨first, rest, rfl, rfl, rfl⟩
              · rintro ⟨first', rest', rfl, rfl, rfl⟩
                rfl

/-- Steps for all items succeed if each of them does. -/
theorem isOk_mapM (f : α → Except ε β) (items : List α) :
    (items.mapM f).isOk = items.all (fun item => (f item).isOk) := by
  induction items with
  | nil => rfl
  | cons item items ih =>
      rw [List.mapM_cons, List.all_cons, ← ih]
      cases f item with
      | error e => rfl
      | ok first => cases items.mapM f <;> rfl

end LineLint
