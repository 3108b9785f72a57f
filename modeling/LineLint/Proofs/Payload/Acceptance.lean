/-
**Which bytes are a saved report.**

A saved report is any UTF-8 text that is a JSON array with one object for each issue.  Every object
has the seven members of an issue, among others perhaps, and the last one of a name counts.  The
line and the column are whole numbers or truth values, the severity is one of the three names, and
the other members may be any values: texts are taken from how a value is displayed, the flag from
whether it counts as true.  Everything else is refused.  There may be a limit to the digits of a
whole number; the escapes of a text stand for characters, none of them for half of one.

Main definitions:

* `LineLint.Payload.IsEntry` — the value of an entry, and the issue it gives;
* `LineLint.Payload.Saved` — **bytes that are a saved report, and its issues**.

Main results:

* `LineLint.Payload.issue_eq_ok_iff` — the entries that are read;
* `LineLint.Payload.read_eq_ok_iff` — the reports that are read;
* `LineLint.Payload.Saved.known`, `LineLint.Payload.Saved.short` — the severities in a saved report
  are known, and its numbers have no more digits than are allowed;
* `LineLint.Payload.read_accepts_saved` — **reading accepts saved reports and nothing else**, and
  what is read has one written form.
-/

import LineLint.Proofs.Fallible
import LineLint.Proofs.Json.Limits
import LineLint.Proofs.Payload.RoundTrip
import LineLint.Proofs.Text.Pieces

set_option relaxedAutoImplicit false
set_option autoImplicit false

namespace LineLint.Payload

/-! ### Entries -/

/-- The value of an entry, and the issue it gives. -/
inductive IsEntry : Json.Value → Issue → Prop where
  | object {members : List (String × Json.Value)} {file message ruleId fixable : Json.Value}
      {line column : Coordinate} {severity : String} :
      Json.get? "file" members = some file →
      Json.get? "line" members = some (coordinateValue line) →
      Json.get? "column" members = some (coordinateValue column) →
      Json.get? "issue" members = some message →
      Json.get? "severity" members = some (.string severity) →
      severity ∈ ["error", "warning", "info"] →
      Json.get? "rule_id" members = some ruleId →
      Json.get? "fixable" members = some fixable →
      IsEntry (.object members)
        { source := file.display
          line := line
          column := column
          message := message.display
          severity := severity
          ruleId := ruleId.display
          fixable := fixable.isTruthy }

theorem coordinate?_eq_some_iff {value : Json.Value} {coordinate : Coordinate} :
    coordinate? value = some coordinate ↔ value = coordinateValue coordinate := by
  constructor
  · intro h
    cases value <;> cases h <;> rfl
  · rintro rfl
    exact coordinate?_coordinateValue coordinate

theorem severity?_eq_some_iff {value : Json.Value} {severity : Severity} :
    severity? value = some severity ↔ value = .string severity.name := by
  constructor
  · intro h
    cases value with
    | string name => rw [Severity.name_of_ofName? h]
    | _ => cases h
  · rintro rfl
    exact Severity.ofName?_name severity

theorem members?_object {members : List (String × Json.Value)}
    {column file fixable message line ruleId severity : Json.Value} :
    members? (.object members) = some [column, file, fixable, message, line, ruleId, severity] ↔
      Json.get? "column" members = some column ∧ Json.get? "file" members = some file ∧
        Json.get? "fixable" members = some fixable ∧ Json.get? "issue" members = some message ∧
        Json.get? "line" members = some line ∧ Json.get? "rule_id" members = some ruleId ∧
        Json.get? "severity" members = some severity := by
  simp [members?, memberNames, Json.Value.member?, Option.bind_eq_some_iff]

/-- Only objects have members. -/
theorem exists_object_of_members? {entry : Json.Value} {values : List Json.Value}
    (h : members? entry = some values) : ∃ members, entry = .object members := by
  cases entry with
  | object members => exact ⟨members, rfl⟩
  | _ => cases h

/-- The entries that are read, and what they give. -/
theorem issue_eq_ok_iff (entry : Json.Value) (found : Issue) :
    issue entry = .ok found ↔ IsEntry entry found := by
  constructor
  · intro h
    unfold issue at h
    split at h
    · rename_i column file fixable message line ruleId severity hmembers
      split at h
      · rename_i line column hline hcolumn
        split at h
        · rename_i known hknown
          cases h
          obtain ⟨members, rfl⟩ := exists_object_of_members? hmembers
          rw [coordinate?_eq_some_iff] at hline hcolumn
          rw [severity?_eq_some_iff] at hknown
          subst hline hcolumn hknown
          obtain ⟨hcolumn, hfile, hfixable, hmessage, hline, hruleId, hseverity⟩ :=
            members?_object.mp hmembers
          have hname : known.name ∈ ["error", "warning", "info"] := by cases known <;> decide
          exact .object hfile hline hcolumn hmessage hseverity hname hruleId hfixable
        · cases h
      · cases h
    · cases h
  · rintro ⟨hfile, hline, hcolumn, hmessage, hseverity, hname, hruleId, hfixable⟩
    obtain ⟨known, hknown⟩ := Severity.exists_ofName?_iff.mpr hname
    have hmembers := members?_object.mpr
      ⟨hcolumn, hfile, hfixable, hmessage, hline, hruleId, hseverity⟩
    simp only [issue, hmembers, coordinate?_coordinateValue, severity?, hknown]
    rw [Severity.name_of_ofName? hknown]

theorem IsEntry.known {entry : Json.Value} {found : Issue} (h : IsEntry entry found) :
    found.Known := by
  cases h with
  | object _ _ _ _ _ hname => exact hname

/-! ### Reports -/

theorem issues_eq_mapM (entries : List Json.Value) : issues entries = entries.mapM issue := by
  induction entries with
  | nil => rfl
  | cons entry entries ih => rw [issues, ih, List.mapM_cons]

/-- Bytes that are a saved report, and its issues: UTF-8 of a JSON text for an array, with one entry
for each issue, in order.  A whole number has no more digits than are allowed. -/
def Saved (digits : Option Nat) (bytes : List UInt8) (found : List Issue) : Prop :=
  ∃ (text : String) (entries : List Json.Value), bytes = Text.Utf8.encode text ∧
    Json.IsText ⟨digits, none⟩ text.toList (.array entries) ∧ List.Forall₂ IsEntry entries found

theorem issues_eq_ok_iff (entries : List Json.Value) (found : List Issue) :
    issues entries = .ok found ↔ List.Forall₂ IsEntry entries found := by
  rw [issues_eq_mapM, mapM_eq_ok_iff]
  simp only [issue_eq_ok_iff]

/-- The severities in entries that are valid are known. -/
theorem known_of_issues {entries : List Json.Value} {found : List Issue}
    (h : issues entries = .ok found) : ∀ i ∈ found, i.Known := by
  have hentries := (issues_eq_ok_iff entries found).1 h
  clear h
  induction hentries with
  | nil => simp
  | cons hfirst _ ih => exact List.forall_mem_cons.2 ⟨hfirst.known, ih⟩

/-- The severities in a saved report that is read are known, whatever the limits. -/
theorem known_of_read {bytes : List UInt8} {limits : Json.Limits} {found : List Issue}
    (h : read bytes limits = .ok found) : ∀ i ∈ found, i.Known := by
  unfold read at h
  split at h
  · cases h
  · split at h
    · cases h
    · exact known_of_issues h
    · cases h

theorem issue_ne_crash {entry : Json.Value} {error : Error} (h : issue entry = .error error)
    (cause : Crash) : error ≠ .crash cause := by
  unfold issue at h
  grind

theorem issues_ne_crash {entries : List Json.Value} {error : Error}
    (h : issues entries = .error error) (cause : Crash) : error ≠ .crash cause := by
  induction entries with
  | nil => cases h
  | cons entry entries ih =>
      rcases error_of_bind_eq_error h with h | ⟨first, -, h⟩
      · exact issue_ne_crash h cause
      · rcases error_of_bind_eq_error h with h | ⟨others, -, h⟩
        · exact ih h
        · cases h

variable {digits : Option Nat}

/-- The reports that are read, and their issues. -/
theorem read_eq_ok_iff (bytes : List UInt8) (found : List Issue) :
    read bytes ⟨digits, none⟩ = .ok found ↔ Saved digits bytes found := by
  constructor
  · intro h
    unfold read at h
    split at h
    · cases h
    · rename_i cs hdecode
      split at h
      · cases h
      · rename_i entries hparse
        refine ⟨String.ofList cs, entries, Text.Utf8.decode_eq_ok_iff.mp hdecode, ?_,
          (issues_eq_ok_iff entries found).mp h⟩
        rw [String.toList_ofList]
        exact (Json.parse_eq_ok_iff _ cs _).mp hparse
      · cases h
  · rintro ⟨text, entries, rfl, htext, hentries⟩
    simp only [read, Text.Utf8.decode_encode, (Json.parse_eq_ok_iff _ _ _).mpr htext]
    exact (issues_eq_ok_iff entries found).mpr hentries

/-- The severities in a saved report that is read are known. -/
theorem Saved.known {bytes : List UInt8} {found : List Issue} (h : Saved digits bytes found) :
    ∀ i ∈ found, i.Known :=
  known_of_read ((read_eq_ok_iff bytes found).mpr h)

/-- The number of a member is short if all numbers are. -/
theorem short_of_get? {members : List (String × Json.Value)} {name : String}
    {coordinate : Coordinate} {n : Int} (hall : Json.AllShort digits (.object members))
    (hget : Json.get? name members = some (coordinateValue coordinate))
    (hcoordinate : coordinate = .number n) : Json.Short digits n := by
  obtain ⟨member, hfind, hvalue⟩ := Option.map_eq_some_iff.1 hget
  cases hall with
  | object hall =>
      have hmember := hall member (List.mem_of_find?_eq_some hfind)
      rw [hvalue, hcoordinate] at hmember
      cases hmember with
      | int hshort => exact hshort

theorem IsEntry.short {entry : Json.Value} {found : Issue} (h : IsEntry entry found)
    (hall : Json.AllShort digits entry) : Short digits found := by
  cases h with
  | object _ hline hcolumn _ _ _ _ _ =>
      rintro n (hn | hn)
      · exact short_of_get? hall hline hn
      · exact short_of_get? hall hcolumn hn

/-- The numbers in a saved report that is read have no more digits than are allowed. -/
theorem Saved.short {bytes : List UInt8} {found : List Issue} (h : Saved digits bytes found) :
    ∀ i ∈ found, Short digits i := by
  obtain ⟨text, entries, -, ⟨_, _, _, -, -, -, hdenotes⟩, hentries⟩ := h
  have hall : ∀ entry ∈ entries, Json.AllShort digits entry :=
    Json.AllShort.of_array hdenotes.allShort
  clear hdenotes
  induction hentries with
  | nil => simp
  | cons hfirst _ ih =>
      obtain ⟨hentry, hall⟩ := List.forall_mem_cons.1 hall
      exact List.forall_mem_cons.2 ⟨hfirst.short hentry, ih hall⟩

/-- What is read is read back from its written form. -/
theorem Saved.read_write {bytes : List UInt8} {found : List Issue} (h : Saved digits bytes found) :
    read (write found) ⟨digits, none⟩ = .ok found :=
  read_write_of_known h.known h.short

/-- Reading refuses bytes by an error of its own, without a limit of depth. -/
theorem ne_crash_of_read {bytes : List UInt8} {error : Error}
    (h : read bytes ⟨digits, none⟩ = .error error) (cause : Crash) : error ≠ .crash cause := by
  unfold read at h
  split at h
  · cases h
    simp
  · split at h
    · rename_i fault hparse
      cases h
      have hcrash := Json.fault_ne_crash rfl hparse
      unfold Error.ofJson
      split
      · simp
      · next found hfault => exact absurd hfault (hcrash found)
      · simp
    · exact issues_ne_crash h cause
    · cases h
      simp

/-- **Reading accepts saved reports and nothing else.**  It gives one issue for each entry, in
order, and their severities are known; any other bytes are refused.  What is read has one written
form, which reads back as it and is written again with the same bytes.  In an object the last member
of a name counts.  All of this holds whatever number of digits is allowed. -/
theorem read_accepts_saved (digits : Option Nat) (bytes : List UInt8) :
    (∀ found, read bytes ⟨digits, none⟩ = .ok found ↔ Saved digits bytes found) ∧
      ((∃ error, read bytes ⟨digits, none⟩ = .error error ∧ ∀ cause, error ≠ .crash cause) ↔
        ¬∃ found, Saved digits bytes found) ∧
      (∀ found, Saved digits bytes found → (∀ i ∈ found, i.Known) ∧
        read (write found) ⟨digits, none⟩ = .ok found ∧
        ∀ again, read (write found) ⟨digits, none⟩ = .ok again → write again = write found) ∧
      ∀ name written,
        Json.get? name (Json.collect [] written) = Json.get? name written.reverse := by
  refine ⟨read_eq_ok_iff bytes, ?_, fun found hsaved => ?_, Json.get?_collect⟩
  · have hrefused : (∃ error, read bytes ⟨digits, none⟩ = .error error) ↔
        ¬∃ found, Saved digits bytes found := by
      rw [← isOk_eq_false_iff, Bool.eq_false_iff, ne_eq, isOk_eq_true_iff]
      simp only [read_eq_ok_iff]
    rw [← hrefused]
    exact ⟨fun ⟨error, herror, _⟩ => ⟨error, herror⟩,
      fun ⟨error, herror⟩ => ⟨error, herror, ne_crash_of_read herror⟩⟩
  · refine ⟨hsaved.known, hsaved.read_write, fun again hagain => ?_⟩
    rw [hsaved.read_write] at hagain
    cases hagain
    rfl

/-- A severity that is given twice, a list and an object for texts, an empty text for the flag, a
truth value for the line and an escaped letter. -/
theorem read_accepts_saved_loosely :
    let bytes := Text.Utf8.encode
      ("[\x7b\"severity\":0,\"line\":true,\"column\":-3,\r\"file\":[7,null],\"fixable\":\"\"," ++
        "\"issue\":\"\\u00e9\",\"rule_id\":\x7b\"a\":NaN\x7d,\"severity\":\"error\"\x7d]")
    let found : List Issue :=
      [⟨"[7, None]", .truth true, .number (-3), "é", "error", "\x7b'a': nan\x7d", false⟩]
    let limits : Json.Limits := ⟨some Text.digitLimit, none⟩
    Saved limits.digits bytes found ∧ (∀ i ∈ found, i.Known) ∧
      read (write found) limits = .ok found ∧
      ∀ again, read (write found) limits = .ok again → write again = write found := by
  intro bytes found limits
  have hread : read bytes limits = .ok found := by
    rw [read, Text.Utf8.decode_encode, String.toList_append]
    decide +kernel
  have hsaved : Saved limits.digits bytes found :=
    ((read_accepts_saved limits.digits bytes).1 found).mp hread
  exact ⟨hsaved, (read_accepts_saved limits.digits bytes).2.2.1 found hsaved⟩

end LineLint.Payload
