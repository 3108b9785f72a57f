/-
**JSON values.**

Whole numbers and floating-point numbers are different values, as their texts are; the members of
an object keep the order in which their names first came.

Main definitions:

* `LineLint.Json.Value` — the values;
* `LineLint.Json.put` — a member added to an object, or given a new value in its place;
* `LineLint.Json.Value.member?` — the value of a member;
* `LineLint.Json.Value.isTruthy` — whether a value counts as true: it is not null, false, zero or
  empty.

Main results:

* `LineLint.Json.get?_put_self`, `LineLint.Json.get?_put_of_ne` — setting a member changes that
  member and no other.
-/

import LineLint.Decimal.Binary64

set_option relaxedAutoImplicit false
set_option autoImplicit false

namespace LineLint.Json

open Decimal

/-- A JSON value. -/
inductive Value where
  | null
  | bool (value : Bool)
  | int (value : Int)
  | float (value : Binary64)
  | string (value : String)
  | array (items : List Value)
  | object (members : List (String × Value))

/-- The members with `name` set to `value`: in the place of the member of that name, or at the
end. -/
def put (name : String) (value : Value) : List (String × Value) → List (String × Value)
  | [] => [(name, value)]
  | member :: rest =>
    if member.1 = name then (name, value) :: rest else member :: put name value rest

/-- The value of the member with a given name. -/
def get? (name : String) (members : List (String × Value)) : Option Value :=
  (members.find? (fun member => member.1 == name)).map Prod.snd

@[simp] theorem get?_put_self (name : String) (value : Value) (members : List (String × Value)) :
    get? name (put name value members) = some value := by
  induction members with
  | nil => simp [put, get?]
  | cons member rest ih =>
    by_cases h : member.1 = name
    · simp [put, get?, h]
    · simpa [put, get?, h] using ih

/-- A member of the result is the one that was set, or was there before. -/
theorem mem_put {name : String} {value : Value} {members : List (String × Value)}
    {member : String × Value} (h : member ∈ put name value members) :
    member = (name, value) ∨ member ∈ members := by
  induction members with
  | nil => exact Or.inl (List.mem_singleton.1 h)
  | cons first rest ih =>
    by_cases hfirst : first.1 = name
    · rw [put, if_pos hfirst] at h
      rcases List.mem_cons.1 h with h | h
      · exact Or.inl h
      · exact Or.inr (List.mem_cons_of_mem _ h)
    · rw [put, if_neg hfirst] at h
      rcases List.mem_cons.1 h with h | h
      · exact Or.inr (h ▸ List.mem_cons_self)
      · exact (ih h).imp_right (List.mem_cons_of_mem _)

theorem get?_put_of_ne {name other : String} (h : other ≠ name) (value : Value)
    (members : List (String × Value)) :
    get? other (put name value members) = get? other members := by
  induction members with
  | nil => simp [put, get?, Ne.symm h]
  | cons member rest ih =>
    by_cases hm : member.1 = name
    · have hne : ¬name = other := Ne.symm h
      simp [put, get?, hm, hne]
    · by_cases ho : member.1 = other
      · simp [put, get?, ho, h]
      · simpa [put, get?, hm, ho] using ih

namespace Value

/-- The value of the member with a given name, if the value is an object that has one. -/
def member? (value : Value) (name : String) : Option Value :=
  match value with
  | .object members => get? name members
  | _ => none

/-- Whether a value counts as true. -/
def isTruthy : Value → Bool
  | .null => false
  | .bool value => value
  | .int value => value != 0
  | .float value => !value.isZero
  | .string value => value != ""
  | .array items => !items.isEmpty
  | .object members => !members.isEmpty

end Value

end LineLint.Json
