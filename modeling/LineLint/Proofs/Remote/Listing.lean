/-
**A listing is taken whole or not at all.**

The hosting service may fail, refuse, or answer with anything.  Its answer lists the files of a pull
request if it is an array of which every entry names a file; then there is one changed file for each
entry, in order.  One entry that names none is enough for there to be no listing, and so is one
number that is too long, or one value that stands too deep to be read.

Main definitions:

* `LineLint.Remote.Named` — an entry that names a file;
* `LineLint.Remote.Records` — the changed file of an entry;
* `LineLint.Remote.HoldsHalf` — a body with half a character in it, about which nothing is said;
* `LineLint.Remote.Unusable`, `LineLint.Remote.Lists` — **responses without a listing, and with
  one**;
* `LineLint.Remote.patchText?`, `LineLint.ChangedFile.patched?` — the text of a patch that is not
  empty, of an entry and of a changed file.

Main results:

* `LineLint.Remote.unusable_or_lists` — a response has a listing or not;
* `LineLint.Remote.filesFrom_of_unusable`, `LineLint.Remote.filesFrom_of_lists` — **what is made of
  a response**;
* `LineLint.Remote.filterMap_patched?` — the texts of the patches can be read off the entries.
-/

import LineLint.Proofs.Fallible
import LineLint.Remote

set_option relaxedAutoImplicit false
set_option autoImplicit false

namespace LineLint

/-- The text of the patch of a file, unless there is none or it is empty. -/
def ChangedFile.patched? (file : ChangedFile) : Option SourceUnit :=
  file.patch.bind (fun patch => if patch = "" then none else some ⟨file.filename, patch⟩)

theorem ChangedFile.units_events (files : List ChangedFile) :
    Event.units (events files) = files.filterMap patched? := by
  have hevent (file : ChangedFile) : file.event.unit? = file.patched? := by
    unfold event patched?
    split
    · next hpatch => simp [hpatch, Event.unit?]
    · next hpatch => simp [hpatch, Event.unit?]
    · next patch hempty hpatch =>
        have hne : patch ≠ "" := hempty
        simp [hpatch, Event.unit?, hne]
  rw [Event.units, events, List.filterMap_map]
  exact List.filterMap_congr fun file _ => hevent file

namespace Remote

/-! ### Entries -/

/-- An entry that names a file: an object with a text that is not empty as its file name. -/
def Named (entry : Json.Value) : Prop :=
  ∃ members name, entry = .object members ∧
    Json.get? "filename" members = some (.string name) ∧ name ≠ ""

/-- The changed file of an entry: it has the name that the entry gives, and the patch if that is a
text. -/
structure Records (entry : Json.Value) (file : ChangedFile) : Prop where
  filename_eq : entry.member? "filename" = some (.string file.filename)
  patch_iff : ∀ patch, file.patch = some patch ↔ entry.member? "patch" = some (.string patch)

/-- The text of the patch of an entry, with the file name, if it is a text and not empty. -/
def patchText? (entry : Json.Value) : Option SourceUnit :=
  match entry.member? "filename", entry.member? "patch" with
  | some (.string name), some (.string patch) => if patch = "" then none else some ⟨name, patch⟩
  | _, _ => none

theorem records_of_file {entry : Json.Value} {listed : ChangedFile} (h : file entry = .ok listed) :
    Named entry ∧ Records entry listed := by
  unfold file at h
  split at h
  · next members =>
      dsimp only at h
      split at h
      · next name hname =>
          split at h
          · cases h
          · next hempty =>
              cases h
              have hne : name ≠ "" := by simpa using hempty
              refine ⟨⟨members, name, rfl, hname, hne⟩, hname, fun patch => ?_⟩
              dsimp only
              split
              · next text htext => simp [htext]
              · next hnone =>
                  refine ⟨nofun, fun htext => ?_⟩
                  exact absurd htext (hnone patch)
      · cases h
  · cases h

theorem exists_file_of_named {entry : Json.Value} (h : Named entry) :
    ∃ listed, file entry = .ok listed := by
  obtain ⟨members, name, rfl, hname, hne⟩ := h
  have hempty : name.isEmpty = false := by simpa using hne
  simp only [file, Json.Value.member?, hname, hempty]
  exact ⟨_, rfl⟩

theorem isOk_file (entry : Json.Value) : (file entry).isOk = true ↔ Named entry := by
  rw [isOk_eq_true_iff]
  exact ⟨fun ⟨_, h⟩ => (records_of_file h).1, exists_file_of_named⟩

theorem filesOf_eq_mapM (entries : List Json.Value) : filesOf entries = entries.mapM file := by
  induction entries with
  | nil => rfl
  | cons entry entries ih => rw [filesOf, ih, List.mapM_cons]

/-- The patches of changed files are those of their entries. -/
theorem filterMap_patched? {entries : List Json.Value} {listed : List ChangedFile}
    (h : List.Forall₂ Records entries listed) :
    listed.filterMap ChangedFile.patched? = entries.filterMap patchText? := by
  have hone {entry : Json.Value} {listed : ChangedFile} (h : Records entry listed) :
      listed.patched? = patchText? entry := by
    unfold ChangedFile.patched? patchText?
    rw [h.filename_eq]
    cases hpatch : listed.patch with
    | some patch => rw [(h.patch_iff patch).1 hpatch]; rfl
    | none =>
        split
        · next name patch _ htext =>
            rw [(h.patch_iff patch).2 htext] at hpatch
            cases hpatch
        · rfl
  induction h with
  | nil => rfl
  | cons hfirst _ ih => rw [List.filterMap_cons, List.filterMap_cons, hone hfirst, ih]

/-! ### Responses -/

/-- A response whose body is read up to an escape for half a character, without the other half. -/
def HoldsHalf (limits : Json.Limits) : Response → Prop
  | .failed _ => False
  | .answered status body => ¬(400 ≤ status ∧ status ≤ 599) ∧
    ∃ place, Json.parse (Text.Utf8.decodeLossyChars body) limits = .error ⟨.loneHalf, place⟩

/-- A response without a listing. -/
inductive Unusable (limits : Json.Limits) : Response → Prop
  | failed (reason : String) : Unusable limits (.failed reason)
  | refused {status : Int} (body : List UInt8) : 400 ≤ status → status ≤ 599 →
      Unusable limits (.answered status body)
  /-- The body is no JSON, or exceeds the limits. -/
  | unread (status : Int) {body : List UInt8} {error : Json.Error} :
      Json.parse (Text.Utf8.decodeLossyChars body) limits = .error error →
      error.fault ≠ .loneHalf → Unusable limits (.answered status body)
  | notArray (status : Int) {body : List UInt8} {listing : Json.Value} :
      Json.parse (Text.Utf8.decodeLossyChars body) limits = .ok listing →
      (∀ entries, listing ≠ .array entries) → Unusable limits (.answered status body)
  | unnamed (status : Int) {body : List UInt8} {entries : List Json.Value} {entry : Json.Value} :
      Json.parse (Text.Utf8.decodeLossyChars body) limits = .ok (.array entries) →
      entry ∈ entries → ¬Named entry → Unusable limits (.answered status body)

/-- A response that is an array of entries, of which each names a file. -/
inductive Lists (limits : Json.Limits) : Response → List Json.Value → Prop
  | intro {status : Int} {body : List UInt8} {entries : List Json.Value} :
      ¬(400 ≤ status ∧ status ≤ 599) →
      Json.parse (Text.Utf8.decodeLossyChars body) limits = .ok (.array entries) →
      (∀ entry ∈ entries, Named entry) → Lists limits (.answered status body) entries

variable {limits : Json.Limits} {response : Response} {entries : List Json.Value}

theorem isRefusal_iff (status : Int) : isRefusal status = true ↔ 400 ≤ status ∧ status ≤ 599 := by
  simp only [isRefusal, Bool.and_eq_true, decide_eq_true_eq]
  omega

theorem unusable_or_lists (h : ¬HoldsHalf limits response) :
    Unusable limits response ∨ ∃ entries, Lists limits response entries := by
  cases response with
  | failed reason => exact Or.inl (.failed reason)
  | answered status body =>
      by_cases hstatus : 400 ≤ status ∧ status ≤ 599
      · exact Or.inl (.refused body hstatus.1 hstatus.2)
      · cases hparse : Json.parse (Text.Utf8.decodeLossyChars body) limits with
        | error error =>
            refine Or.inl (.unread status hparse fun hhalf => h ⟨hstatus, error.position, ?_⟩)
            rw [hparse, ← hhalf]
        | ok listing =>
            by_cases harray : ∃ entries, listing = .array entries
            · obtain ⟨entries, rfl⟩ := harray
              by_cases hnamed : ∀ entry ∈ entries, Named entry
              · exact Or.inr ⟨entries, .intro hstatus hparse hnamed⟩
              · simp only [not_forall] at hnamed
                obtain ⟨entry, hentry, hbad⟩ := hnamed
                exact Or.inl (.unnamed status hparse hentry hbad)
            · exact Or.inl (.notArray status hparse (not_exists.1 harray))

/-- **One fault anywhere in a response, and there is no listing.** -/
theorem filesFrom_of_unusable (h : Unusable limits response) (url : String) :
    ∃ error, filesFrom url response limits = .error error := by
  rw [← isOk_eq_false_iff]
  cases response with
  | failed reason => rfl
  | answered status body =>
      rw [filesFrom]
      split
      · rfl
      · next hstatus =>
          rw [isRefusal_iff] at hstatus
          cases h with
          | refused _ hlow hhigh => exact absurd ⟨hlow, hhigh⟩ hstatus
          | unread _ hparse => simp [hparse]
          | @notArray _ _ listing hparse hnot =>
              cases listing with
              | array entries => exact absurd rfl (hnot entries)
              | null => simp [hparse, files]
              | bool => simp [hparse, files]
              | int => simp [hparse, files]
              | float => simp [hparse, files]
              | string => simp [hparse, files]
              | object => simp [hparse, files]
          | unnamed _ hparse hentry hbad =>
              simp only [hparse, files, filesOf_eq_mapM, isOk_mapM]
              rw [← Bool.not_eq_true, List.all_eq_true]
              intro hall
              exact hbad ((isOk_file _).1 (hall _ hentry))

/-- **A listing gives one changed file for each entry**, in order. -/
theorem filesFrom_of_lists (h : Lists limits response entries) (url : String) :
    ∃ listed, filesFrom url response limits = .ok listed ∧
      List.Forall₂ Records entries listed := by
  obtain ⟨hstatus, hparse, hnamed⟩ := h
  have hall : (entries.mapM file).isOk = true := by
    rw [isOk_mapM, List.all_eq_true]
    exact fun entry hentry => (isOk_file entry).2 (hnamed entry hentry)
  obtain ⟨listed, hlisted⟩ := isOk_eq_true_iff.1 hall
  refine ⟨listed, ?_, (mapM_eq_ok_iff.1 hlisted).imp fun entry one h => (records_of_file h).2⟩
  rw [filesFrom, if_neg (by rwa [isRefusal_iff]), hparse]
  dsimp only [files]
  rw [filesOf_eq_mapM, hlisted]

theorem HoldsHalf.filesFrom_eq (h : HoldsHalf limits response) (url : String) :
    filesFrom url response limits = .error (.notJson url) := by
  cases response with
  | failed reason => exact h.elim
  | answered status body =>
      obtain ⟨hstatus, place, hparse⟩ := h
      simp only [filesFrom, if_neg (mt (isRefusal_iff status).1 hstatus), hparse]
      rfl

/-- What is taken was a listing. -/
theorem exists_lists_of_filesFrom {url : String} {listed : List ChangedFile}
    (h : filesFrom url response limits = .ok listed) :
    ∃ entries, Lists limits response entries ∧ List.Forall₂ Records entries listed := by
  have hhalf : ¬HoldsHalf limits response := fun hhalf => by
    rw [hhalf.filesFrom_eq] at h
    cases h
  rcases unusable_or_lists hhalf with hunusable | ⟨entries, hlists⟩
  · obtain ⟨error, herror⟩ := filesFrom_of_unusable hunusable url
    rw [h] at herror
    cases herror
  · obtain ⟨listed', hlisted', hrecords⟩ := filesFrom_of_lists hlists url
    rw [h] at hlisted'
    cases hlisted'
    exact ⟨entries, hlists, hrecords⟩

end Remote

end LineLint
