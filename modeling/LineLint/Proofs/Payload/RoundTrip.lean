/-
**Saved reports are read back.**

A saved report whose severities are all known is read back as exactly the issues that were saved;
otherwise reading refuses it and names the first severity that is not known.

Main definitions:

* `LineLint.Issue.Known` — the severity of an issue is one of the three.

Main results:

* `LineLint.Payload.issue_value` — one issue is read back from its JSON value;
* `LineLint.Payload.read_write` — reading a saved report is reading the values of its issues;
* `LineLint.Payload.read_write_exact` — **what is saved is read back**, or the first unknown
  severity is named.
-/

import LineLint.Payload
import LineLint.Proofs.Json.RoundTrip
import LineLint.Proofs.Text.Utf8

set_option relaxedAutoImplicit false
set_option autoImplicit false

namespace LineLint

/-- The severity of an issue is one of the three. -/
def Issue.Known (issue : Issue) : Prop := issue.severity ∈ ["error", "warning", "info"]

instance : DecidablePred Issue.Known := fun issue =>
  inferInstanceAs (Decidable (issue.severity ∈ ["error", "warning", "info"]))

theorem Issue.known_iff (issue : Issue) :
    issue.Known ↔ ∃ severity, Severity.ofName? issue.severity = some severity :=
  Severity.exists_ofName?_iff.symm

theorem Issue.ofName?_of_not_known {issue : Issue} (h : ¬issue.Known) :
    Severity.ofName? issue.severity = none := by
  rw [Issue.known_iff, not_exists] at h
  exact Option.eq_none_iff_forall_ne_some.2 h

namespace Payload

/-! ### One issue -/

/-- The numbers of an issue have no more digits than are allowed. -/
def Short (digits : Option Nat) (issue : Issue) : Prop :=
  ∀ n, issue.line = .number n ∨ issue.column = .number n → Json.Short digits n

/-- Without a limit every issue is short. -/
theorem short_none (issue : Issue) : Short none issue := nofun

theorem plain_coordinateValue {digits : Option Nat} {coordinate : Coordinate}
    (h : ∀ n, coordinate = .number n → Json.Short digits n) :
    Json.Plain digits (coordinateValue coordinate) := by
  cases coordinate with
  | number value => exact Json.Plain.int (h value rfl)
  | truth value => exact Json.Plain.bool value

/-- The value of a short issue has no floating-point numbers and no name twice. -/
theorem plain_value {digits : Option Nat} {issue : Issue} (h : Short digits issue) :
    Json.Plain digits (value issue) := by
  have hnames : memberNames.Nodup := by decide
  have hline := plain_coordinateValue fun n hn => h n (Or.inl hn)
  have hcolumn := plain_coordinateValue fun n hn => h n (Or.inr hn)
  refine Json.Plain.object hnames ?_
  simp only [List.forall_mem_cons]
  exact ⟨hcolumn, .string _, .bool _, .string _, hline, .string _, .string _, by simp⟩

@[simp] theorem coordinate?_coordinateValue (coordinate : Coordinate) :
    coordinate? (coordinateValue coordinate) = some coordinate := by
  cases coordinate <;> rfl

theorem members?_value (issue : Issue) :
    members? (value issue) =
      some [coordinateValue issue.column, .string issue.source, .bool issue.fixable,
        .string issue.message, coordinateValue issue.line, .string issue.ruleId,
        .string issue.severity] := rfl

/-- An issue is read back from its value if its severity is known. -/
theorem issue_value_of_known {i : Issue} (h : i.Known) : issue (value i) = .ok i := by
  obtain ⟨severity, hseverity⟩ := (Issue.known_iff i).1 h
  simp only [issue, members?_value, coordinate?_coordinateValue, severity?, hseverity]
  rw [Severity.name_of_ofName? hseverity]
  rfl

theorem issue_value_of_not_known {i : Issue} (h : ¬i.Known) :
    issue (value i) = .error (.unknownSeverity i.severity) := by
  have hseverity : Severity.ofName? i.severity = none := Issue.ofName?_of_not_known h
  simp only [issue, members?_value, coordinate?_coordinateValue, severity?, hseverity]
  rfl

/-! ### Reports -/

/-- Reading a saved report is reading the values of its issues. -/
theorem read_write {digits : Option Nat} {saved : List Issue} (h : ∀ i ∈ saved, Short digits i) :
    read (write saved) ⟨digits, none⟩ = issues (saved.map value) := by
  have hplain : Json.Plain digits (.array (saved.map value)) := by
    refine Json.Plain.array fun item hitem => ?_
    obtain ⟨i, hi, rfl⟩ := List.mem_map.1 hitem
    exact plain_value (h i hi)
  have htext : (text saved).toList = Json.indentedChars 0 (.array (saved.map value)) ++ ['\n'] := by
    simp [text, Json.Value.indented]
  simp only [read, write, Text.Utf8.decode_encode, htext, Json.parse_indented hplain]

/-- Without a limit everything that is written is read. -/
theorem read_write_unlimited (saved : List Issue) :
    read (write saved) = issues (saved.map value) :=
  read_write fun i _ => short_none i

theorem issues_map_value_of_known {saved : List Issue} (h : ∀ i ∈ saved, i.Known) :
    issues (saved.map value) = .ok saved := by
  induction saved with
  | nil => rfl
  | cons i saved ih =>
      obtain ⟨hi, hsaved⟩ := List.forall_mem_cons.1 h
      rw [List.map_cons, issues, issue_value_of_known hi, ih hsaved]
      rfl

/-- Issues of known severities are read back, if their numbers are as short as they have to be. -/
theorem read_write_of_known {digits : Option Nat} {saved : List Issue}
    (hknown : ∀ i ∈ saved, i.Known) (hshort : ∀ i ∈ saved, Short digits i) :
    read (write saved) ⟨digits, none⟩ = .ok saved := by
  rw [read_write hshort, issues_map_value_of_known hknown]

theorem issues_map_value_of_first {before after : List Issue} {bad : Issue}
    (hbefore : ∀ i ∈ before, i.Known) (hbad : ¬bad.Known) :
    issues ((before ++ bad :: after).map value) = .error (.unknownSeverity bad.severity) := by
  induction before with
  | nil =>
      rw [List.nil_append, List.map_cons, issues, issue_value_of_not_known hbad]
      rfl
  | cons i before ih =>
      obtain ⟨hi, hbefore⟩ := List.forall_mem_cons.1 hbefore
      rw [List.cons_append, List.map_cons, issues, issue_value_of_known hi, ih hbefore]
      rfl

/-- **What is saved is read back.**  If all severities are known, the same issues come back in the
same order; otherwise reading fails, and the message names the first severity that is not known. -/
theorem read_write_exact (saved : List Issue) :
    ((∀ i ∈ saved, i.Known) → read (write saved) = .ok saved) ∧
      ((∃ i ∈ saved, ¬i.Known) →
        ∃ before bad after error, saved = before ++ bad :: after ∧ (∀ i ∈ before, i.Known) ∧
          ¬bad.Known ∧ read (write saved) = .error error ∧
          error.message (write saved) = "Unknown severity in issue payload: " ++ bad.severity) := by
  have hread := read_write_unlimited saved
  constructor
  · intro h
    rw [hread, issues_map_value_of_known h]
  · intro h
    obtain ⟨bad, hfirst⟩ : ∃ bad, saved.find? (fun i => !decide i.Known) = some bad := by
      rw [← Option.isSome_iff_exists, List.find?_isSome]
      simpa using h
    obtain ⟨hbad, before, after, rfl, hbefore⟩ := List.find?_eq_some_iff_append.1 hfirst
    simp only [Bool.not_eq_true', decide_eq_false_iff_not] at hbad
    simp only [Bool.not_not, decide_eq_true_eq] at hbefore
    refine ⟨before, bad, after, .unknownSeverity bad.severity, rfl, hbefore, hbad, ?_, rfl⟩
    rw [hread, issues_map_value_of_first hbefore hbad]

/-- Escapes, an astral character, negative numbers and truth values come back; an unknown severity
behind a known one is found. -/
theorem read_write_exact_escapes :
    let known : Issue := ⟨"a\"b\\\u0001😀", .number (-12), .truth true, "", "warning", "é\n", true⟩
    let bad : Issue := ⟨"", .truth false, .number 0, "\t", "fatal", "", false⟩
    read (write [known]) = .ok [known] ∧
      ∃ before first after error, [known, bad] = before ++ first :: after ∧
        (∀ i ∈ before, i.Known) ∧ ¬first.Known ∧ read (write [known, bad]) = .error error ∧
        error.message (write [known, bad]) =
          "Unknown severity in issue payload: " ++ first.severity := by
  intro known bad
  refine ⟨(read_write_exact [known]).1 (by decide), (read_write_exact [known, bad]).2 ?_⟩
  exact ⟨bad, by simp, by decide⟩

end Payload

end LineLint
