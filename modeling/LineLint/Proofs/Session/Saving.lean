/-
**Saving the findings of a session.**

A session saves its findings at the location that a path leads to, or it does not; its findings are
the same afterwards.  If it does, the file has the findings as its content, the directories above it
are there, nothing else differs, and saving them once more changes nothing.  If it does not, because
there is a directory at the location, or something else than a directory above it, the session is
as it was.

There is one more reason not to save.  A name on the way may be too long for a file, and that shows
only after the directories above it have been made; they stay.

Main results:

* `LineLint.Session.step_write_of_ok`, `LineLint.Session.step_write_of_error` — what the step does,
  by what the write into its tree gives;
* `LineLint.Session.write_saves_or_leaves` — **what saving leaves**;
* `LineLint.Session.write_leaves_directory_above_longName` — a directory stays above a name that is
  too long.
-/

import LineLint.Proofs.Fallible
import LineLint.Proofs.Tree.MakesWay
import LineLint.Session

set_option relaxedAutoImplicit false
set_option autoImplicit false

namespace LineLint.Session

variable {session after : Session} {path : Path} {location : Location}
  {failure : Tree.WriteFailure} {answer : Except Error Answer}

theorem step_write_of_ok {written : Tree.Written}
    (h : session.tree.write session.directory path (Payload.write session.findings.issues) =
      .ok written) :
    session.step (.write path) =
      (.ok (.saved written.path (Payload.text session.findings.issues)),
        { session with tree := written.tree }) := by
  rw [step, save, h]

theorem step_write_of_error
    (h : session.tree.write session.directory path (Payload.write session.findings.issues) =
      .error failure) :
    session.step (.write path) =
      (.error (.write failure.error), { session with tree := failure.tree }) := by
  rw [step, save, h]

/-- **What saving leaves**, at the location that a path leads to from the working directory, or from
the root of all files, and where there is no pipe.  Only the tree of the session can change.  The
findings are saved, with nothing changed but the directories above the file that were missing, and
saving them again changes nothing; or the write is refused, and the session is as it was; or
something on the way is too long, and no more is changed than that directories on the way have been
made. -/
theorem write_saves_or_leaves {entries : List (String × Tree)}
    (hdirectory : session.tree.at? session.directory = some (.directory entries))
    (hleads : session.tree.Leads (path.start session.directory) path.parts location)
    (hpipe : session.tree.at? location ≠ some .pipe)
    (hstep : session.step (.write path) = (answer, after)) :
    after = { session with tree := after.tree } ∧
      (answer = .ok (.saved (Tree.locationText location)
            (Payload.text session.findings.issues)) ∧
          after.tree.at? location = some (.file (Payload.write session.findings.issues)) ∧
          session.tree.MakesWay location after.tree ∧
          after.step (.write path) = (answer, after) ∨
        (∃ error, answer = .error (.write error) ∧
          session.tree.Refuses path location error ∧ after = session) ∨
        ∃ failure : Tree.WriteFailure, answer = .error (.write failure.error) ∧
          after.tree = failure.tree ∧ session.tree.FallsShort location failure) := by
  obtain ⟨spot, hspot, rfl⟩ := Tree.reached_iff_leads.2 hleads
  have hunlinked : session.tree.Unlinked spot.location := by
    refine hleads.unlinked ?_
    rw [Path.start]
    split
    · exact Tree.unlinked_nil session.tree
    · exact Tree.unlinked_of_directory hdirectory
  cases hwrite : session.tree.write session.directory path
      (Payload.write session.findings.issues) with
  | ok written =>
      obtain ⟨hwritten, hagain⟩ := Tree.write_again hspot hunlinked hwrite
      have hway := Tree.makesWay_of_write hwrite
      obtain ⟨-, -, hsaves⟩ := Tree.saves_of_write hwrite
      rw [step_write_of_ok hwrite] at hstep
      cases hstep
      rw [hwritten] at hsaves hway ⊢
      exact ⟨rfl, Or.inl ⟨rfl, hsaves.at_location, hway, hwritten ▸ step_write_of_ok hagain⟩⟩
  | error failure =>
      rw [step_write_of_error hwrite] at hstep
      cases hstep
      refine ⟨rfl, Or.inr ?_⟩
      rcases Tree.refuses_or_fallsShort_of_write_error hspot hpipe hwrite with
        ⟨hrefuses, hsame⟩ | hshort
      · exact Or.inl ⟨failure.error, rfl, hrefuses, by rw [hsame]⟩
      · exact Or.inr ⟨failure, rfl, rfl, hshort⟩

/-- A link leads through a directory that is missing, to another one that is made; the path and the
link are absolute. -/
theorem write_saves_or_leaves_behind_link :
    let session : Session :=
      { matcher := { rules := ⟨[]⟩ }, directory := ["w"]
        tree := .directory [("w", .directory [("l", .link "/w/a/../b")])] }
    let path : Path := ⟨"/", ["w", "l", "c"]⟩
    session.tree.at? ["w", "b", "c"] = none ∧
      ∃ answer after, session.step (.write path) = (answer, after) ∧
        after.tree.at? ["w", "b", "c"] = some (.file (Payload.write [])) ∧
        session.tree.MakesWay ["w", "b", "c"] after.tree ∧
        after.step (.write path) = (answer, after) := by
  intro session path
  have hdirectory : session.tree.at? ["w"] = some (.directory [("l", .link "/w/a/../b")]) := by
    simp [session, Tree.at?, Tree.entry?]
  have hmissing : session.tree.at? ["w", "b", "c"] = none := by
    simp [session, Tree.at?, Tree.entry?, List.lookup_cons]
  have hreached : session.tree.resolve ["w"] path = .reached ⟨["w", "b", "c"], true⟩ := by
    decide +kernel
  have hleads : session.tree.Leads (path.start ["w"]) path.parts ["w", "b", "c"] :=
    Tree.reached_iff_leads.1 ⟨_, hreached, rfl⟩
  have hsaved : (session.step (.write path)).1.isOk = true := by decide +kernel
  have hpipe : session.tree.at? ["w", "b", "c"] ≠ some .pipe := by simp [hmissing]
  rcases hstep : session.step (.write path) with ⟨answer, after⟩
  rw [hstep] at hsaved
  refine ⟨hmissing, answer, after, rfl, ?_⟩
  obtain ⟨-, ⟨-, hfile, hway, hagain⟩ | ⟨error, rfl, -⟩ | ⟨failure, rfl, -⟩⟩ :=
    write_saves_or_leaves hdirectory hleads hpipe hstep
  · exact ⟨hfile, hway, hagain⟩
  · cases hsaved
  · cases hsaved

theorem holdsNull_of_not_mem {cs : List Char} (h : Char.ofNat 0 ∉ cs) :
    Tree.holdsNull ⟨"", ["d", String.ofList cs]⟩ = false := by
  simp [Tree.holdsNull, Path.text, Text.join, Text.joinChars, h]

/-- A directory stays above a name that is too long. -/
theorem write_leaves_directory_above_longName :
    let longName := String.ofList (List.replicate 256 'x')
    let session : Session := { matcher := { rules := ⟨[]⟩ } }
    let path : Path := ⟨"", ["d", longName]⟩
    let result := session.step (.write path)
    session.tree.Leads (path.start session.directory) path.parts ["d", longName] ∧
      session.tree.at? ["d", longName] = none ∧
      ¬(result.1.isOk = true ∨ result.2.tree = session.tree) := by
  intro longName session path result
  have hreached : session.tree.resolve session.directory path =
      .reached ⟨["d", longName], false⟩ := by
    decide +kernel
  have hnull : Tree.holdsNull path = false := by
    refine holdsNull_of_not_mem fun hmem => ?_
    exact absurd (List.eq_of_mem_replicate hmem) (by decide)
  have hlong : Tree.isTooLong longName = true := by decide +kernel
  have hmade : (Tree.checkParent session.tree Tree.locationText ["d"]).isOk = true := by
    decide +kernel
  obtain ⟨⟨⟩, hparent⟩ := isOk_eq_true_iff.1 hmade
  have hresult : result = _ :=
    step_write_of_error (Tree.write_of_longName hnull hreached rfl hparent hlong)
  rw [hresult]
  refine ⟨Tree.reached_iff_leads.1 ⟨_, hreached, rfl⟩, Tree.at?_empty_of_ne_nil (by simp), ?_⟩
  rintro (hok | hsame)
  · cases hok
  · have hdirectory := congrArg (fun tree => (tree.at? ["d"]).isSome) hsame
    revert hdirectory
    decide +kernel

end LineLint.Session
