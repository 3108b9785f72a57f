/-
**Severities.**

There are three severities, the worst first.  Rules and issues carry the name of one as a text,
because a catalogue or a report that comes from outside may name any other.

Main definitions:

* `LineLint.Severity` — the three severities;
* `LineLint.Severity.ofName?` — the severity with a given name;
* `LineLint.Severity.rank` — its place, the worst first.

Main results:

* `LineLint.Severity.ofName?_name` — every severity is found under its own name;
* `LineLint.Severity.name_of_ofName?`, `LineLint.Severity.exists_ofName?_iff` — and under no other.
-/

set_option relaxedAutoImplicit false
set_option autoImplicit false

namespace LineLint

/-- How bad a finding is. -/
inductive Severity where
  | error
  | warning
  | info
  deriving DecidableEq, Repr

namespace Severity

/-- All severities, the worst first. -/
def all : List Severity := [.error, .warning, .info]

/-- The name of a severity. -/
def name : Severity → String
  | .error => "error"
  | .warning => "warning"
  | .info => "info"

/-- The severity with a given name. -/
def ofName? (name : String) : Option Severity :=
  if name = "error" then some .error
  else if name = "warning" then some .warning
  else if name = "info" then some .info
  else none

/-- The place of a severity, the worst first. -/
def rank : Severity → Nat
  | .error => 0
  | .warning => 1
  | .info => 2

@[simp] theorem ofName?_name (severity : Severity) : ofName? severity.name = some severity := by
  cases severity <;> decide

theorem name_of_ofName? {text : String} {severity : Severity} (h : ofName? text = some severity) :
    severity.name = text := by
  unfold ofName? at h
  split at h
  · next hname => cases h; exact hname.symm
  · split at h
    · next hname => cases h; exact hname.symm
    · split at h
      · next hname => cases h; exact hname.symm
      · cases h

/-- The texts under which a severity is found. -/
theorem exists_ofName?_iff {text : String} :
    (∃ severity, ofName? text = some severity) ↔ text ∈ ["error", "warning", "info"] := by
  constructor
  · rintro ⟨severity, h⟩
    rw [← name_of_ofName? h]
    cases severity <;> decide
  · intro h
    simp only [List.mem_cons, List.not_mem_nil, or_false] at h
    rcases h with rfl | rfl | rfl
    · exact ⟨.error, rfl⟩
    · exact ⟨.warning, rfl⟩
    · exact ⟨.info, rfl⟩

end Severity

end LineLint
