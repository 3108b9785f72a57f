/-
**A report loses its control sequences, and the texts in it lose theirs, but nothing else.**

A line of a report is made of pieces: words of the report itself, fields that come from outside, and
marks that change the style.  Fields may hold anything, also an escape that begins a control
sequence and does not finish it.  No sequence goes over from one piece into another one: words hold
no escape, a mark is a whole sequence, and behind every field stands something that goes on with no
sequence — a colon, a blank, or the end of the line.  So what is left of a report is the same report
without marks, in which every field has lost the sequences that it holds itself.

Main definitions:

* `LineLint.Report.Piece`, `LineLint.Report.row`, `LineLint.Report.page` — the pieces of a line, and
  the texts of lines and of reports in one of two forms;
* `LineLint.Report.Piece.coloured`, `LineLint.Report.Piece.bare` — **with marks and fields as they
  are, and without marks and with fields that are stripped on their own**;
* `LineLint.Report.Apart` — no sequence goes over from one piece of a line into the next;
* `LineLint.Report.humanLines`, `LineLint.Report.pullRequestLines` — the lines of both reports.

Main results:

* `LineLint.Report.plain_row`, `LineLint.Report.plain_page` — what is left of lines whose pieces
  stand apart;
* `LineLint.Report.apart_humanLines`, `LineLint.Report.apart_pullRequestLines` — the pieces of both
  reports stand apart;
* `LineLint.Report.exists_human_page`, `LineLint.Report.exists_pullRequest_page` — each report, and
  what is left of it;
* `LineLint.Report.plain_reports_strip_fields` — **what is left of both reports**.
-/

import LineLint.Proofs.Report.PullRequest
import LineLint.Proofs.Report.Sequences

set_option relaxedAutoImplicit false
set_option autoImplicit false

namespace LineLint.Report

/-! ### Pieces of lines -/

/-- A piece of a line. -/
inductive Piece where
  /-- Words of the report itself. -/
  | words (text : String)
  /-- A name or a message, which may hold anything. -/
  | field (text : String)
  /-- The beginning of a style, or its end. -/
  | mark (code : String)

/-- A piece as the report has it. -/
def Piece.coloured : Piece → String
  | .words text => text
  | .field text => text
  | .mark code => sequence code

/-- A piece without styles; a field is stripped on its own. -/
def Piece.bare : Piece → String
  | .words text => text
  | .field text => plain text
  | .mark _ => ""

/-- The text of a line whose pieces are written in some form. -/
def row (form : Piece → String) : List Piece → String
  | [] => ""
  | piece :: pieces => form piece ++ row form pieces

/-- The text of lines whose pieces are written in some form. -/
def page (form : Piece → String) (lines : List (List Piece)) : String :=
  Text.join "\n" (lines.map (row form))

/-- Pieces in a style. -/
def painted (style : Style) (pieces : List Piece) : List Piece :=
  .mark style.code :: (pieces ++ [.mark "0"])

theorem row_append (form : Piece → String) (first second : List Piece) :
    row form (first ++ second) = row form first ++ row form second := by
  induction first with
  | nil => exact (String.empty_append).symm
  | cons piece first ih => rw [List.cons_append, row, row, ih, String.append_assoc]

theorem row_painted (style : Style) (pieces : List Piece) :
    row Piece.coloured (painted style pieces) = styled style (row Piece.coloured pieces) := by
  rw [painted, row, row_append, ← String.append_assoc]
  simp [row, Piece.coloured, styled]

/-- No control sequence goes over from one piece into the next one: words hold no escape, marks are
whole sequences, and what follows a field goes on with none. -/
def Apart : List Piece → Prop
  | [] => True
  | .words text :: pieces => escapeChar ∉ text.toList ∧ Apart pieces
  | .field _ :: pieces => Stops (row Piece.coloured pieces).toList ∧ Apart pieces
  | .mark code :: pieces => (∀ c ∈ code.toList, isParameter c = true) ∧ Apart pieces

/-- What is left of a line whose pieces stand apart. -/
theorem plain_row {pieces : List Piece} (h : Apart pieces) :
    plain (row Piece.coloured pieces) = row Piece.bare pieces := by
  induction pieces with
  | nil => rfl
  | cons piece pieces ih =>
      cases piece with
      | words text =>
          obtain ⟨hclean, h⟩ := h
          rw [row, row, ← ih h]
          exact plain_append_of_clean hclean
      | field text =>
          obtain ⟨hstops, h⟩ := h
          rw [row, row, ← ih h]
          exact plain_append_of_stops hstops
      | mark code =>
          obtain ⟨hcode, h⟩ := h
          rw [row, row, ← ih h]
          exact (plain_sequence_append hcode _).trans String.empty_append.symm

theorem plain_page {lines : List (List Piece)} (h : ∀ line ∈ lines, Apart line) :
    plain (page Piece.coloured lines) = page Piece.bare lines := by
  rw [page, page, plain_join, List.map_map]
  exact congrArg (Text.join "\n") (List.map_congr_left fun line hline => plain_row (h line hline))

/-- Behind pieces that stand apart, others may follow that go on with no sequence. -/
theorem Apart.append {first second : List Piece} (hfirst : Apart first) (hsecond : Apart second)
    (hstops : Stops (row Piece.coloured second).toList) : Apart (first ++ second) := by
  induction first with
  | nil => exact hsecond
  | cons piece first ih =>
      cases piece with
      | words text => exact ⟨hfirst.1, ih hfirst.2⟩
      | mark code => exact ⟨hfirst.1, ih hfirst.2⟩
      | field text =>
          refine ⟨?_, ih hfirst.2⟩
          rw [List.append_eq, row_append]
          by_cases hempty : row Piece.coloured first = ""
          · rwa [hempty, String.empty_append]
          · exact stops_append _ hempty hfirst.1

/-- Pieces that stand apart also do so in a style. -/
theorem Apart.painted {style : Style} {pieces : List Piece} (h : Apart pieces) :
    Apart (painted style pieces) := by
  have hcode : ∀ c ∈ style.code.toList, isParameter c = true := by
    cases style <;> simp [Style.code, isParameter]
  have hend : Apart [.mark "0"] := by simp [Apart, isParameter]
  have hstops : Stops (row Piece.coloured [.mark "0"]).toList := by
    simp [row, Piece.coloured, sequence, Continues, isParameter, escapeChar]
  exact ⟨hcode, h.append hend hstops⟩

/-! ### Words without escapes -/

@[simp] theorem escape_not_mem_natural (n : Nat) : escapeChar ∉ (Text.natural n).toList := by
  intro hmem
  rw [Text.natural, String.toList_ofList] at hmem
  exact absurd (Text.isDigit_of_mem_decimalDigits hmem) (by decide)

@[simp] theorem escape_not_mem_coordinate (place : Coordinate) :
    escapeChar ∉ place.text.toList := by
  cases place with
  | truth value => cases value <;> simp [Coordinate.text]
  | number value =>
      cases value with
      | ofNat n => exact escape_not_mem_natural n
      | negSucc n =>
          intro hmem
          rw [Coordinate.text, Text.integer, String.toList_ofList] at hmem
          rcases List.mem_cons.1 hmem with heq | hmem
          · exact absurd heq (by decide)
          · exact absurd (Text.isDigit_of_mem_decimalDigits hmem) (by decide)

@[simp] theorem escape_not_mem_bar : escapeChar ∉ bar.toList := by
  have hreplicate (n : Nat) : escapeChar ∉ (String.ofList (List.replicate n '═')).toList := by
    simp [List.mem_replicate]
  exact hreplicate 60

@[simp] theorem escape_not_mem_icon (severity : Severity) :
    escapeChar ∉ (icon severity).toList := by
  cases severity <;> simp [icon]

@[simp] theorem escape_not_mem_label (severity : Severity) :
    escapeChar ∉ (label severity).toList := by
  cases severity <;> simp [label]

@[simp] theorem escape_not_mem_name (severity : Severity) :
    escapeChar ∉ severity.name.toList := by
  cases severity <;> simp [Severity.name]

/-! ### The report for people -/

/-- The lines of a title. -/
def titleLines (text : String) : List (List Piece) :=
  [[.words bar], painted .bold [.words text], [.words bar]]

/-- The lines of an issue. -/
def Preview.entryLines (entry : Preview) : List (List Piece) :=
  [painted (colour entry.severity)
    [.words (icon entry.severity), .words " [", .words entry.severity.name, .words "] ",
      .field entry.issue.source, .words ":", .words entry.issue.line.text],
   [.words "   ", .field entry.issue.message],
   []]

/-- The lines above all issues. -/
def bannerLines (summary : Summary) : List (List Piece) :=
  [painted .bold [.words "🔍 Code Quality Linter"],
   [],
   [.words "Linted ", .words (Text.natural summary.unitsScanned), .words " files"],
   [.words "Found ", .words (Text.natural summary.total), .words " issues"],
   []]

/-- The line of the total of a severity. -/
def totalPieces (summary : Summary) (severity : Severity) : List Piece :=
  [.words (label severity), .words ": ", .words (Text.natural (summary.count severity))]

/-- The lines of the report for people. -/
def humanLines (summary : Summary) (entries : List Preview) : List (List Piece) :=
  if entries.isEmpty then
    bannerLines summary ++ [painted .green [.words "✅ No issues found!"]]
  else
    bannerLines summary ++ titleLines "LINT RESULTS" ++ entries.flatMap Preview.entryLines ++
      titleLines "SUMMARY" ++ Severity.all.map (totalPieces summary)

theorem apart_titleLines {text : String} (h : escapeChar ∉ text.toList) :
    ∀ line ∈ titleLines text, Apart line := by
  have htext : Apart [.words text] := ⟨h, trivial⟩
  simp [titleLines, htext.painted, Apart]

theorem Preview.apart_entryLines (entry : Preview) : ∀ line ∈ entry.entryLines, Apart line := by
  -- a colon follows the name, and the end of the line the message
  have hheader : Apart [.words (icon entry.severity), .words " [", .words entry.severity.name,
      .words "] ", .field entry.issue.source, .words ":", .words entry.issue.line.text] := by
    simp [Apart, row, Piece.coloured, Continues, isParameter]
  simp [Preview.entryLines, hheader.painted, Apart, row]

theorem apart_bannerLines (summary : Summary) : ∀ line ∈ bannerLines summary, Apart line := by
  have htitle : Apart [.words "🔍 Code Quality Linter"] := by simp [Apart]
  simp [bannerLines, htitle.painted, Apart]

theorem apart_totalPieces (summary : Summary) (severity : Severity) :
    Apart (totalPieces summary severity) := by
  simp [totalPieces, Apart]

theorem apart_humanLines (summary : Summary) (entries : List Preview) :
    ∀ line ∈ humanLines summary entries, Apart line := by
  have hnone : Apart [.words "✅ No issues found!"] := by simp [Apart]
  unfold humanLines
  split
  · simp only [List.forall_mem_append, List.forall_mem_singleton]
    exact ⟨apart_bannerLines summary, hnone.painted⟩
  · simp only [List.forall_mem_append, List.forall_mem_flatMap, List.forall_mem_map]
    exact ⟨⟨⟨⟨apart_bannerLines summary, apart_titleLines (by simp)⟩,
      fun entry _ => entry.apart_entryLines⟩, apart_titleLines (by simp)⟩,
      fun severity _ => apart_totalPieces summary severity⟩

theorem Preview.issueLines_eq (entry : Preview) :
    issueLines entry.issue = .ok (entry.entryLines.map (row Piece.coloured)) := by
  have hseverity : entry.issue.severity? = .ok entry.severity := by
    rw [Issue.severity?, ← entry.named, Severity.ofName?_name]
  rw [issueLines, hseverity, ← entry.named]
  simp [bind, Except.bind, pure, Except.pure, Preview.entryLines, row_painted, row, Piece.coloured,
    String.append_assoc]

theorem allIssueLines_previews (entries : List Preview) :
    allIssueLines (entries.map Preview.issue) =
      .ok ((entries.flatMap Preview.entryLines).map (row Piece.coloured)) := by
  induction entries with
  | nil => rfl
  | cons entry entries ih =>
      rw [List.map_cons, allIssueLines, entry.issueLines_eq, ih, List.flatMap_cons, List.map_append]
      rfl

theorem titleLines_coloured (text : String) :
    (titleLines text).map (row Piece.coloured) = title text := by
  simp [titleLines, title, row_painted, row, Piece.coloured]

theorem bannerLines_coloured (summary : Summary) :
    (bannerLines summary).map (row Piece.coloured) = banner summary := by
  simp [bannerLines, banner, row_painted, row, Piece.coloured, String.append_assoc]

theorem totalPieces_coloured (summary : Summary) :
    (Severity.all.map (totalPieces summary)).map (row Piece.coloured) = totals summary := by
  rw [List.map_map]
  refine List.map_congr_left fun severity _ => ?_
  simp [totalPieces, row, Piece.coloured, String.append_assoc]

/-- The report for people has these lines. -/
theorem human_eq_page {findings : Findings} {summary : Summary} {entries : List Preview}
    (hsummary : findings.summary = .ok summary)
    (hentries : entries.map Preview.issue = findings.issues) :
    human findings = .ok (page Piece.coloured (humanLines summary entries)) := by
  have hnone : row Piece.coloured (painted .green [.words "✅ No issues found!"]) =
      styled .green "✅ No issues found!" := by
    rw [row_painted]
    rfl
  rw [human, hsummary, ← hentries, allIssueLines_previews, List.isEmpty_map]
  simp only [bind, Except.bind, humanLines, page]
  split
  · rw [List.map_append, bannerLines_coloured, List.map_singleton, hnone]
    rfl
  · simp only [List.map_append, bannerLines_coloured, titleLines_coloured, totalPieces_coloured]
    rfl

/-! ### The report on a pull request -/

/-- The pieces of the line of an issue. -/
def Preview.pieces (preview : Preview) : List Piece :=
  .words "   " :: (painted (colour preview.severity) [.words preview.severity.name, .words ":"] ++
    [.words " ", .field preview.issue.message, .words " (line ",
      .words preview.issue.line.text, .words ")"])

/-- The lines of a section. -/
def Section.pieces (part : Section) : List (List Piece) :=
  [[], [.words "📄 ", .field part.source]] ++ part.shown.map Preview.pieces ++
    if 0 < part.hidden then
      [[.words "   ... ", .words (Text.natural part.hidden), .words " more"]]
    else []

/-- The lines of the report on a pull request with `count` issues. -/
def pullRequestLines (count : Nat) (parts : List Section) : List (List Piece) :=
  [painted .bold [.words "🔍 Linting PR..."]] ++ parts.flatMap Section.pieces ++
    [[], painted .green [.words "✅ Found ", .words (Text.natural count), .words " lint issues"]]

theorem Preview.apart_pieces (preview : Preview) : Apart preview.pieces := by
  have hname : Apart [.words preview.severity.name, .words ":"] := by simp [Apart]
  -- a blank follows the message
  have hbehind : Apart [.words " ", .field preview.issue.message, .words " (line ",
      .words preview.issue.line.text, .words ")"] := by
    simp [Apart, row, Piece.coloured, Continues, isParameter]
  refine ⟨by simp, hname.painted.append hbehind ?_⟩
  simp [row, Piece.coloured, Continues, isParameter]

theorem Section.apart_pieces (part : Section) : ∀ line ∈ part.pieces, Apart line := by
  have hshown : ∀ line ∈ part.shown.map Preview.pieces, Apart line :=
    List.forall_mem_map.2 fun preview _ => preview.apart_pieces
  refine List.forall_mem_append.2 ⟨List.forall_mem_append.2 ⟨?_, hshown⟩, ?_⟩
  · simp [Apart, row]
  · split <;> simp [Apart]

theorem apart_pullRequestLines (count : Nat) (parts : List Section) :
    ∀ line ∈ pullRequestLines count parts, Apart line := by
  have htitle : Apart [.words "🔍 Linting PR..."] := by simp [Apart]
  have hcount : Apart [.words "✅ Found ", .words (Text.natural count), .words " lint issues"] := by
    simp [Apart]
  have hparts : ∀ line ∈ parts.flatMap Section.pieces, Apart line :=
    List.forall_mem_flatMap.2 fun part _ => part.apart_pieces
  refine List.forall_mem_append.2 ⟨List.forall_mem_append.2 ⟨?_, hparts⟩, ?_⟩
  · exact List.forall_mem_singleton.2 htitle.painted
  · simp [hcount.painted, Apart]

theorem Preview.pieces_coloured (preview : Preview) :
    row Piece.coloured preview.pieces = preview.line := by
  simp [Preview.pieces, Preview.line, row, row_append, row_painted, Piece.coloured,
    String.append_assoc]

theorem Section.pieces_coloured (part : Section) :
    part.pieces.map (row Piece.coloured) = part.lines := by
  have hshown : part.shown.map (row Piece.coloured ∘ Preview.pieces) =
      part.shown.map Preview.line :=
    List.map_congr_left fun preview _ => preview.pieces_coloured
  rw [Section.pieces, Section.lines, List.map_append, List.map_append, List.map_map, hshown]
  split <;> simp [row, Piece.coloured, String.append_assoc]

/-- The report on a pull request has the lines of its sections. -/
theorem pullRequest_eq_page {issues : List Issue} {limit : Nat} {parts : List Section}
    (hsources : parts.map Section.source = sources issues)
    (hcovers : ∀ part ∈ parts, part.Covers limit issues) :
    pullRequest issues limit =
      .ok (page Piece.coloured (pullRequestLines issues.length parts)) := by
  have hlines : (parts.flatMap Section.pieces).map (row Piece.coloured) =
      parts.flatMap Section.lines := by
    rw [List.map_flatMap]
    exact List.flatMap_congr fun part _ => part.pieces_coloured
  rw [pullRequest_eq_sections hsources hcovers, page, pullRequestLines, List.map_append,
    List.map_append, hlines]
  simp [row_painted, row, Piece.coloured, String.append_assoc]

/-! ### What is left -/

/-- If all severities are known, the report for people is there, and what is left of it are the same
lines without marks. -/
theorem exists_human_page {findings : Findings} (h : ∀ issue ∈ findings.issues, issue.Known) :
    ∃ summary entries, findings.summary = .ok summary ∧
      entries.map Preview.issue = findings.issues ∧
      human findings = .ok (page Piece.coloured (humanLines summary entries)) ∧
      plain (page Piece.coloured (humanLines summary entries)) =
        page Piece.bare (humanLines summary entries) := by
  obtain ⟨summary, hsummary⟩ := isOk_eq_true_iff.1 (findings.isOk_summary.2 h)
  obtain ⟨entries, hentries⟩ := exists_previews h
  exact ⟨summary, entries, hsummary, hentries, human_eq_page hsummary hentries,
    plain_page (apart_humanLines summary entries)⟩

/-- If all severities are known, the report on a pull request is there, and what is left of it are
the same lines without marks. -/
theorem exists_pullRequest_page {issues : List Issue} (h : ∀ issue ∈ issues, issue.Known)
    (limit : Nat) :
    ∃ parts, parts.map Section.source = sources issues ∧
      (∀ part ∈ parts, part.Covers limit issues) ∧
      pullRequest issues limit =
        .ok (page Piece.coloured (pullRequestLines issues.length parts)) ∧
      plain (page Piece.coloured (pullRequestLines issues.length parts)) =
        page Piece.bare (pullRequestLines issues.length parts) := by
  obtain ⟨parts, hsources, hcovers⟩ := exists_sections h limit (sources issues)
  exact ⟨parts, hsources, hcovers, pullRequest_eq_page hsources hcovers,
    plain_page (apart_pullRequestLines issues.length parts)⟩

/-- **What is left of the reports when all control sequences are removed.**  If all severities are
known, there are both reports; what is left of each are the same lines without marks, in which every
name and every message has lost the sequences that it holds itself.  The sequences are the
occurrences of a pattern, as a search from left to right finds them. -/
theorem plain_reports_strip_fields {findings : Findings}
    (h : ∀ issue ∈ findings.issues, issue.Known) (limit : Nat) :
    (∃ summary entries, findings.summary = .ok summary ∧
      entries.map Preview.issue = findings.issues ∧
      human findings = .ok (page Piece.coloured (humanLines summary entries)) ∧
      plain (page Piece.coloured (humanLines summary entries)) =
        page Piece.bare (humanLines summary entries)) ∧
    (∃ parts, parts.map Section.source = sources findings.issues ∧
      (∀ part ∈ parts, part.Covers limit findings.issues) ∧
      pullRequest findings.issues limit =
        .ok (page Piece.coloured (pullRequestLines findings.issues.length parts)) ∧
      plain (page Piece.coloured (pullRequestLines findings.issues.length parts)) =
        page Piece.bare (pullRequestLines findings.issues.length parts)) ∧
    Pattern.parse "\\x1b\\[[;?0-9]*[a-zA-Z]" = .ok controlSequence ∧
    ∀ text, plain text = String.ofList
      (without text.toList 0 (Pattern.occurrences text.toList.toArray controlSequence)) :=
  ⟨exists_human_page h, exists_pullRequest_page h limit, parse_controlSequence,
    plain_eq_without⟩

/-- An issue is shown in one way only. -/
theorem Preview.issue_injective : Function.Injective Preview.issue := by
  intro a b hissue
  have hname : a.severity.name = b.severity.name := by
    rw [a.named, b.named, hissue]
  have hseverity : a.severity = b.severity := by
    simpa using congrArg Severity.ofName? hname
  obtain ⟨issue, severity, named⟩ := a
  obtain ⟨issue', severity', named'⟩ := b
  cases hissue
  cases hseverity
  rfl

/-- Names and messages that end within a sequence; two names that are the same without the sequences
in them, and still two sections. -/
theorem plain_reports_strip_fields_unfinished :
    let issueOf (source severity message : String) (line : Int) : Issue :=
      { source := source, line := .number line, column := .number 1, message := message
        severity := severity, ruleId := "r" }
    let findings : Findings :=
      ⟨[issueOf "a\x1b[3" "error" "m\x1b" 1,
          issueOf "\x1b[1ma\x1b[3" "info" "\x1b[31m[0m\n\x1b[?" 20],
        ["b"]⟩
    (∀ issue ∈ findings.issues, issue.Known) ∧
    (∃ report, human findings = .ok report ∧ plain report = Text.join "\n"
      ["🔍 Code Quality Linter", "", "Linted 1 files", "Found 2 issues", "",
        bar, "LINT RESULTS", bar, "❌ [error] a\x1b[3:1", "   m\x1b", "",
        "ℹ️ [info] a\x1b[3:20", "   [0m\n\x1b[?", "",
        bar, "SUMMARY", bar, "Errors: 1", "Warnings: 0", "Info: 1"]) ∧
    ∃ parts report, parts.map Section.source = ["a\x1b[3", "\x1b[1ma\x1b[3"] ∧
      pullRequest findings.issues 3 = .ok report ∧
      plain report = page Piece.bare (pullRequestLines 2 parts) := by
  intro issueOf findings
  have hknown : ∀ issue ∈ findings.issues, issue.Known := by decide
  obtain ⟨⟨summary, entries, hsummary, hentries, hhuman, hleft⟩,
    ⟨parts, hsources, -, hpullRequest, hleft'⟩, -, -⟩ := plain_reports_strip_fields hknown 3
  have hcounts : findings.summary = .ok ⟨1, 0, 1, 2, 1⟩ := rfl
  obtain rfl : summary = ⟨1, 0, 1, 2, 1⟩ := Except.ok.inj (hsummary.symm.trans hcounts)
  obtain rfl : entries = [⟨_, .error, rfl⟩, ⟨_, .info, rfl⟩] :=
    Preview.issue_injective.list_map hentries
  refine ⟨hknown, ⟨_, hhuman, hleft.trans ?_⟩, parts, _, hsources.trans ?_, hpullRequest, hleft'⟩
  · refine congrArg (Text.join "\n") ?_
    decide +kernel
  · decide

end LineLint.Report
