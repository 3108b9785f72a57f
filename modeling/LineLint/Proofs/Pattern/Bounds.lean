/-
**The bounds of a repetition are in order.**

The reader refuses a repetition whose least number is above its greatest.  So every pattern that is
read has the bounds of all its repetitions in order, however deep they stand: this holds for the
items and alternatives of every group that is open, and every step of the reader keeps it.

Main definitions:

* `LineLint.Pattern.InOrder` — the bounds of all repetitions in a pattern are in order;
* `LineLint.Pattern.Reading.InOrder` — the same for everything that a reader has read so far.

Main results:

* `LineLint.Pattern.readInOrder_step` — a step of the reader keeps the bounds in order;
* `LineLint.Pattern.inOrder_of_parse` — **the bounds in a pattern that is read are in order**.
-/

import LineLint.Pattern.Reader
import LineLint.Proofs.Fallible

set_option relaxedAutoImplicit false
set_option autoImplicit false

namespace LineLint

namespace Pattern

/-! ### Patterns -/

/-- The bounds of all repetitions in a pattern are in order. -/
def InOrder : Pattern → Prop
  | .empty => True
  | .chars _ => True
  | .anchor _ => True
  | .seq first second => first.InOrder ∧ second.InOrder
  | .alt first second => first.InOrder ∧ second.InOrder
  | .group _ body => body.InOrder
  | .backref _ _ _ => True
  | .repeated body least most _ => body.InOrder ∧ ∀ m, most = some m → least ≤ m
  | .lookAhead _ body => body.InOrder
  | .lookBehind _ _ body => body.InOrder
  | .atomic body => body.InOrder
  | .ifGroup _ present absent => present.InOrder ∧ absent.InOrder

theorem inOrder_ofList {patterns : List Pattern} (h : ∀ p ∈ patterns, p.InOrder) :
    (ofList patterns).InOrder := by
  induction patterns with
  | nil => trivial
  | cons p rest ih =>
      obtain ⟨hp, hrest⟩ := List.forall_mem_cons.1 h
      cases rest with
      | nil => exact hp
      | cons q rest => exact ⟨hp, ih hrest⟩

theorem inOrder_oneOf {patterns : List Pattern} (h : ∀ p ∈ patterns, p.InOrder) :
    (oneOf patterns).InOrder := by
  induction patterns with
  | nil => trivial
  | cons p rest ih =>
      obtain ⟨hp, hrest⟩ := List.forall_mem_cons.1 h
      cases rest with
      | nil => exact hp
      | cons q rest => exact ⟨hp, ih hrest⟩

/-! ### The state of the reader -/

/-- The bounds in an open group are in order. -/
structure Frame.InOrder (frame : Frame) : Prop where
  branches : ∀ p ∈ frame.branches, p.InOrder
  items : ∀ item ∈ frame.items, item.pattern.InOrder

theorem Frame.InOrder.branch {frame : Frame} (h : frame.InOrder) : frame.branch.InOrder := by
  refine inOrder_ofList fun p hp => ?_
  obtain ⟨item, hitem, rfl⟩ := List.mem_map.1 hp
  exact h.items item (List.mem_reverse.1 hitem)

theorem Frame.InOrder.alternatives {frame : Frame} (h : frame.InOrder) :
    ∀ p ∈ frame.alternatives, p.InOrder := by
  intro p hp
  rcases List.mem_cons.1 (List.mem_reverse.1 hp) with rfl | hp
  · exact h.branch
  · exact h.branches p hp

/-- The bounds in everything that is read so far are in order. -/
structure Reading.InOrder (r : Reading) : Prop where
  frame : r.frame.InOrder
  outer : ∀ frame ∈ r.outer, frame.InOrder

variable {r : Reading}

theorem Reading.InOrder.goOn (h : r.InOrder) (input : Input) :
    Reading.InOrder { r with input := input } :=
  ⟨h.frame, h.outer⟩

theorem Reading.InOrder.push (h : r.InOrder) {item : Item} (hitem : item.pattern.InOrder) :
    (r.push item).InOrder :=
  ⟨⟨h.frame.branches, List.forall_mem_cons.2 ⟨hitem, h.frame.items⟩⟩, h.outer⟩

theorem Reading.InOrder.enter (h : r.InOrder) (opener : Opener) (start : Nat) (flags : Flags) :
    (r.enter opener start flags).InOrder :=
  ⟨⟨by simp [Reading.enter], by simp [Reading.enter]⟩,
    List.forall_mem_cons.2 ⟨h.frame, h.outer⟩⟩

/-- If reading goes on at all, the bounds are in order. -/
def ReadInOrder (result : Except Error Reading) : Prop :=
  ∀ r, result = .ok r → r.InOrder

theorem ReadInOrder.ok (h : r.InOrder) : ReadInOrder (.ok r) := by
  intro r' hr'
  cases hr'
  exact h

theorem ReadInOrder.error (error : Error) : ReadInOrder (.error error) := by
  intro r hr
  cases hr

theorem ReadInOrder.bind {α : Type} {result : Except Error α} {next : α → Except Error Reading}
    (h : ∀ a, result = .ok a → ReadInOrder (next a)) : ReadInOrder (result >>= next) := by
  cases result with
  | error error => exact ReadInOrder.error error
  | ok a => exact h a rfl

/-! ### Repetitions -/

/-- Bounds in order. -/
def Bounds.InOrder (bounds : Bounds) : Prop := ∀ m, bounds.most = some m → bounds.least ≤ m

theorem inOrder_of_boundsOf {low high : List Char} {start : Nat} {bounds : Bounds}
    (h : boundsOf low high start = .ok bounds) : bounds.InOrder := by
  obtain ⟨least, -, h⟩ := exists_of_bind_eq_ok h
  obtain ⟨most, -, h⟩ := exists_of_bind_eq_ok h
  dsimp only at h
  split at h
  · cases h
  · next hreversed =>
      cases h
      rintro m rfl
      simp only [Option.any_some, decide_eq_true_eq] at hreversed
      exact Nat.le_of_not_lt hreversed

theorem inOrder_of_readBounds {input after : Input} {bounds : Bounds}
    (h : readBounds input = .ok (some (bounds, after))) : bounds.InOrder := by
  unfold readBounds at h
  split at h
  · cases h
  · obtain ⟨low, -, h⟩ := exists_of_bind_eq_ok h
    obtain ⟨comma, -, h⟩ := exists_of_bind_eq_ok h
    -- with or without a comma, what stands before the closing brace is checked the same way
    cases comma
    all_goals
      obtain ⟨high, -, h⟩ := exists_of_bind_eq_ok h
      obtain ⟨last, -, h⟩ := exists_of_bind_eq_ok h
      cases last with
      | none => cases h
      | some last =>
          obtain ⟨found, hfound, h⟩ := exists_of_bind_eq_ok h
          cases h
          exact inOrder_of_boundsOf hfound

theorem readInOrder_repeatLast (h : r.InOrder) (start : Nat) {bounds : Bounds}
    (hbounds : bounds.InOrder) : ReadInOrder (repeatLast r start bounds) := by
  unfold repeatLast
  split
  · exact ReadInOrder.error _
  · next item items hitems =>
      have hread := h.frame.items
      rw [hitems] at hread
      obtain ⟨hitem, hread⟩ := List.forall_mem_cons.1 hread
      split
      · exact ReadInOrder.error _
      · exact ReadInOrder.error _
      · refine ReadInOrder.bind fun lazyInput _ => ReadInOrder.bind fun possessiveInput _ => ?_
        refine ReadInOrder.ok ?_
        -- only the last item has changed, and its bounds are those given
        exact ⟨⟨h.frame.branches, List.forall_mem_cons.2 ⟨⟨hitem, hbounds⟩, hread⟩⟩, h.outer⟩

theorem readInOrder_readQuantifier (h : r.InOrder) (c : Char) (start : Nat) :
    ReadInOrder (readQuantifier r c start) := by
  unfold readQuantifier
  split
  · refine readInOrder_repeatLast h start fun m hm => Nat.zero_le _
  · refine readInOrder_repeatLast h start fun m hm => Nat.zero_le _
  · refine readInOrder_repeatLast h start fun m hm => ?_
    cases hm
  · refine ReadInOrder.bind fun found hfound => ?_
    rcases found with _ | ⟨bounds, after⟩
    · exact ReadInOrder.ok (h.push trivial)
    · exact readInOrder_repeatLast (h.goOn after) start (inOrder_of_readBounds hfound)

/-! ### Items and groups -/

theorem readInOrder_readClass (names : String → Option Nat) (h : r.InOrder) (start : Nat) :
    ReadInOrder (readClass names r start) := by
  refine ReadInOrder.bind fun negation _ => ReadInOrder.bind fun members _ => ReadInOrder.ok ?_
  exact (h.goOn members.2).push trivial

theorem readInOrder_openFlags (h : r.InOrder) (start : Nat) (first : Char) :
    ReadInOrder (openFlags r start first) := by
  refine ReadInOrder.bind fun ⟨whole, change, after⟩ _ => ?_
  dsimp only
  split
  · split
    · exact ReadInOrder.ok ⟨⟨h.frame.branches, h.frame.items⟩, h.outer⟩
    · exact ReadInOrder.error _
  · exact ReadInOrder.ok ((h.goOn after).enter _ _ _)

theorem readInOrder_openCapture (h : r.InOrder) (start : Nat) (name : Option String) :
    ReadInOrder (openCapture r start name) := by
  have hinner (index : Nat) : Reading.InOrder { r with nextGroup := index } := ⟨h.frame, h.outer⟩
  unfold openCapture
  dsimp only
  split
  · exact ReadInOrder.ok ((hinner _).enter _ _ _)
  · split
    · exact ReadInOrder.error _
    · obtain ⟨hframe, houter⟩ :=
        (hinner (r.nextGroup + 1)).enter (.capture r.nextGroup) start r.flags
      exact ReadInOrder.ok ⟨hframe, houter⟩

theorem readInOrder_refer (h : r.InOrder) (index back : Nat) :
    ReadInOrder (refer r index back) := by
  unfold refer
  split
  · exact ReadInOrder.error _
  · exact ReadInOrder.bind fun _ _ => ReadInOrder.ok (h.push trivial)

theorem readInOrder_openNamed (h : r.InOrder) (start : Nat) : ReadInOrder (openNamed r start) := by
  refine ReadInOrder.bind fun opening _ => ?_
  cases opening with
  | some inner =>
      refine ReadInOrder.bind fun ⟨name, after⟩ _ => ?_
      dsimp only
      split
      · exact ReadInOrder.error _
      · exact readInOrder_openCapture (h.goOn after) start (some name)
  | none =>
      refine ReadInOrder.bind fun equals _ => ?_
      cases equals with
      | some inner =>
          refine ReadInOrder.bind fun ⟨name, after⟩ _ => ?_
          dsimp only
          split
          · exact ReadInOrder.error _
          · split
            · exact ReadInOrder.error _
            · exact readInOrder_refer (h.goOn after) _ _
      | none =>
          refine ReadInOrder.bind fun ⟨token, after⟩ _ => ?_
          cases token with
          | none => exact ReadInOrder.error _
          | some token => exact ReadInOrder.error _

theorem readInOrder_openConditional (h : r.InOrder) (start : Nat) :
    ReadInOrder (openConditional r start) := by
  refine ReadInOrder.bind fun ⟨name, after⟩ _ => ReadInOrder.bind fun ⟨index, asked⟩ _ => ?_
  refine ReadInOrder.bind fun _ _ => ReadInOrder.ok ?_
  have hasked : Reading.InOrder { r with input := after, asked := asked } := ⟨h.frame, h.outer⟩
  exact hasked.enter _ _ _

theorem readInOrder_openBehind (h : r.InOrder) (start : Nat) :
    ReadInOrder (openBehind r start) := by
  refine ReadInOrder.bind fun ⟨token, after⟩ _ => ?_
  cases token with
  | none => exact ReadInOrder.error _
  | some token =>
      dsimp only
      split
      · obtain ⟨hframe, houter⟩ := (h.goOn after).enter
          (.behind (token == Token.plain '=') r.behindFrom.isNone) start r.flags
        exact ReadInOrder.ok ⟨hframe, houter⟩
      · exact ReadInOrder.error _

theorem readInOrder_openExtension (h : r.InOrder) (start : Nat) :
    ReadInOrder (openExtension r start) := by
  refine ReadInOrder.bind fun ⟨token, after⟩ _ => ?_
  have hafter := h.goOn after
  dsimp only
  split
  · exact ReadInOrder.error _
  · exact readInOrder_openNamed hafter start
  · exact ReadInOrder.ok (hafter.enter _ _ _)
  · exact ReadInOrder.bind fun last _ => ReadInOrder.ok (hafter.goOn last)
  · exact ReadInOrder.ok (hafter.enter _ _ _)
  · exact ReadInOrder.ok (hafter.enter _ _ _)
  · exact readInOrder_openBehind hafter start
  · exact readInOrder_openConditional hafter start
  · exact ReadInOrder.ok (hafter.enter _ _ _)
  · split
    · exact readInOrder_openFlags hafter start _
    · exact ReadInOrder.error _
  · exact ReadInOrder.error _

theorem readInOrder_readOpening (h : r.InOrder) (start : Nat) :
    ReadInOrder (readOpening r start) := by
  refine ReadInOrder.bind fun mark _ => ?_
  cases mark with
  | none => exact readInOrder_openCapture h start none
  | some inner => exact readInOrder_openExtension (h.goOn inner) start

theorem inOrder_finishGroup (h : r.InOrder) : r.finishGroup.2.pattern.InOrder := by
  have halternatives := h.frame.alternatives
  have hbody := inOrder_oneOf halternatives
  unfold Reading.finishGroup
  dsimp only
  split
  · exact hbody
  · exact hbody
  · exact hbody
  · exact hbody
  · exact hbody
  · exact hbody
  · split
    · next present absent heq =>
        rw [heq] at halternatives
        exact ⟨halternatives present (by simp), halternatives absent (by simp)⟩
    · exact ⟨hbody, trivial⟩

theorem readInOrder_close (h : r.InOrder) : ReadInOrder r.close := by
  unfold Reading.close
  split
  · split
    · exact ReadInOrder.error _
    · exact ReadInOrder.error _
  · next frame outer houter =>
      have hread := h.outer
      rw [houter] at hread
      obtain ⟨hframe, hread⟩ := List.forall_mem_cons.1 hread
      refine ReadInOrder.bind fun after _ => ReadInOrder.ok ?_
      -- the group that is closed becomes an item of the one around it
      have hitem := inOrder_finishGroup (h.goOn after)
      exact ⟨⟨hframe.branches, List.forall_mem_cons.2 ⟨hitem, hframe.items⟩⟩, hread⟩

theorem readInOrder_nextBranch (h : r.InOrder) : ReadInOrder r.nextBranch := by
  unfold Reading.nextBranch
  split
  · exact ReadInOrder.error _
  · refine ReadInOrder.bind fun after _ => ReadInOrder.ok ?_
    exact ⟨⟨List.forall_mem_cons.2 ⟨h.frame.branch, h.frame.branches⟩, by simp⟩, h.outer⟩

/-! ### The whole pattern -/

theorem readInOrder_pushEscape (h : r.InOrder) (escape : Escape) :
    ReadInOrder (pushEscape r escape) := by
  unfold pushEscape
  split
  · exact ReadInOrder.ok (h.push trivial)
  · exact ReadInOrder.ok (h.push trivial)
  · exact ReadInOrder.ok (h.push trivial)
  · split
    · exact readInOrder_refer h _ _
    · exact ReadInOrder.error _

theorem readInOrder_readItem (names : String → Option Nat) (h : r.InOrder) (token : Token)
    (start : Nat) : ReadInOrder (readItem names r token start) := by
  unfold readItem
  split
  · exact ReadInOrder.ok h
  · exact ReadInOrder.bind fun ⟨escape, after⟩ _ => readInOrder_pushEscape (h.goOn after) escape
  · split
    · exact ReadInOrder.ok h
    · split
      · exact ReadInOrder.bind fun after _ => ReadInOrder.ok (h.goOn after)
      · split
        · exact readInOrder_readClass names h start
        · split
          · exact readInOrder_readQuantifier h _ start
          · split
            · exact readInOrder_readOpening h start
            · split
              · exact ReadInOrder.ok (h.push trivial)
              · split
                · exact ReadInOrder.ok (h.push trivial)
                · split
                  · exact ReadInOrder.ok (h.push trivial)
                  · exact ReadInOrder.ok (h.push trivial)

/-- A step of the reader keeps the bounds in order. -/
theorem readInOrder_step (names : String → Option Nat) (h : r.InOrder) :
    ReadInOrder (r.step names) := by
  unfold Reading.step
  split
  · exact ReadInOrder.ok h
  · exact readInOrder_close h
  · exact readInOrder_nextBranch h
  · exact ReadInOrder.bind fun after _ => readInOrder_readItem names (h.goOn after) _ _

theorem readInOrder_steps (names : String → Option Nat) (h : r.InOrder) (count : Nat) :
    ReadInOrder (Reading.steps names count r) := by
  -- induction on the number of steps, for any reader whose bounds are in order
  induction count generalizing r with
  | zero => exact ReadInOrder.ok h
  | succ count ih =>
      exact ReadInOrder.bind fun next hnext => ih (readInOrder_step names h next hnext)

/-- **The bounds in a pattern that is read are in order.** -/
theorem inOrder_of_parse {source : String} {names : String → Option Nat} {pattern : Pattern}
    (h : parse source names = .ok pattern) : pattern.InOrder := by
  obtain ⟨input, -, h⟩ := exists_of_bind_eq_ok h
  obtain ⟨r, hr, h⟩ := exists_of_bind_eq_ok h
  have hstart : Reading.InOrder { input := input, frame := ⟨.whole, 0, {}, [], []⟩ } :=
    ⟨⟨by simp, by simp⟩, by simp⟩
  have hread := readInOrder_steps names hstart _ r hr
  unfold Reading.finish at h
  dsimp only at h
  split at h
  · cases h
  · split at h
    · cases h
    · split at h
      · cases h
      · split at h
        · cases h
        · cases h
          exact inOrder_oneOf hread.frame.alternatives

end Pattern

end LineLint
