/-
**What the pieces of some bytes are.**

A piece that is a character consists of the bytes of that character and of nothing else, so strict
decoding accepts exactly the bytes of texts.  Everything that is known about first bytes is said
once, by the four forms of `Lead.Form`.

Main definitions:

* `LineLint.Text.Utf8.Lead.Form` — what a first byte of each of the four lengths says.

Main results:

* `LineLint.Text.Utf8.Lead.form_of_of?` — every first byte has one of the four forms;
* `LineLint.Text.Utf8.eq_encodeChar_of_piece` — **a piece that is a character is its encoding**;
* `LineLint.Text.Utf8.decode_eq_ok_iff` — **strict decoding accepts exactly the bytes of texts**.
-/

import LineLint.Proofs.Fallible
import LineLint.Proofs.Text.Utf8

set_option relaxedAutoImplicit false
set_option autoImplicit false

namespace LineLint.Text.Utf8

/-! ### First bytes -/

/-- What a first byte says about the number of bytes that follow, about the bits that it holds, and
about the bounds of the byte after it.  The bounds are narrower where a character would have a
shorter encoding, would be half a pair, or would be beyond the last code point. -/
inductive Lead.Form (byte : Nat) (lead : Lead) : Prop
  | one : byte < 0x80 → lead.following = 0 → lead.bits = byte → Form byte lead
  | two : 0xc2 ≤ byte → byte < 0xe0 → lead.following = 1 → lead.bits + 0xc0 = byte →
      Form byte lead
  | three : 0xe0 ≤ byte → byte < 0xf0 → lead.following = 2 → lead.bits + 0xe0 = byte →
      (byte = 0xe0 → 0xa0 ≤ lead.least) → (byte = 0xed → lead.greatest ≤ 0x9f) → Form byte lead
  | four : 0xf0 ≤ byte → byte < 0xf5 → lead.following = 3 → lead.bits + 0xf0 = byte →
      (byte = 0xf0 → 0x90 ≤ lead.least) → (byte = 0xf4 → lead.greatest ≤ 0x8f) → Form byte lead

/-- Every first byte has one of the four forms, and what follows it is a continuation byte. -/
theorem Lead.form_of_of? {byte : Nat} {lead : Lead} (h : Lead.of? byte = some lead) :
    Lead.Form byte lead ∧ 0x80 ≤ lead.least ∧ lead.greatest ≤ 0xbf := by
  rw [Lead.of?] at h
  by_cases hone : byte < 0x80
  · rw [if_pos hone] at h
    cases h
    exact ⟨.one hone rfl rfl, Nat.le_refl _, Nat.le_refl _⟩
  rw [if_neg hone] at h
  by_cases hlow : byte < 0xc2
  · rw [if_pos hlow] at h
    cases h
  rw [if_neg hlow] at h
  by_cases htwo : byte < 0xe0
  · rw [if_pos htwo] at h
    cases h
    exact ⟨.two (by omega) htwo rfl (by simp only; omega), Nat.le_refl _, Nat.le_refl _⟩
  rw [if_neg htwo] at h
  by_cases hshort : byte = 0xe0
  · rw [if_pos hshort] at h
    cases h
    exact ⟨.three (by omega) (by omega) rfl hshort.symm (fun _ => Nat.le_refl _) (by omega),
      (by decide : 0x80 ≤ 0xa0), Nat.le_refl _⟩
  rw [if_neg hshort] at h
  by_cases hpair : byte = 0xed
  · rw [if_pos hpair] at h
    cases h
    exact ⟨.three (by omega) (by omega) rfl hpair.symm (by omega) (fun _ => Nat.le_refl _),
      Nat.le_refl _, (by decide : 0x9f ≤ 0xbf)⟩
  rw [if_neg hpair] at h
  by_cases hthree : byte < 0xf0
  · rw [if_pos hthree] at h
    cases h
    exact ⟨.three (by omega) hthree rfl (by simp only; omega) (fun heq => absurd heq hshort)
      (fun heq => absurd heq hpair), Nat.le_refl _, Nat.le_refl _⟩
  rw [if_neg hthree] at h
  by_cases hshort : byte = 0xf0
  · rw [if_pos hshort] at h
    cases h
    exact ⟨.four (by omega) (by omega) rfl hshort.symm (fun _ => Nat.le_refl _) (by omega),
      (by decide : 0x80 ≤ 0x90), Nat.le_refl _⟩
  rw [if_neg hshort] at h
  by_cases hfour : byte < 0xf4
  · rw [if_pos hfour] at h
    cases h
    exact ⟨.four (by omega) (by omega) rfl (by simp only; omega) (fun heq => absurd heq hshort)
      (by omega), Nat.le_refl _, Nat.le_refl _⟩
  rw [if_neg hfour] at h
  by_cases hlast : byte = 0xf4
  · rw [if_pos hlast] at h
    cases h
    exact ⟨.four (by omega) (by omega) rfl hlast.symm (by omega) (fun _ => Nat.le_refl _),
      Nat.le_refl _, (by decide : 0x8f ≤ 0xbf)⟩
  · rw [if_neg hlast] at h
    cases h

/-! ### Characters -/

theorem toNat_ofNat_of_valid {code : Nat} (h : code.isValidChar) :
    (Char.ofNat code).toNat = code := by
  rw [Char.ofNat, dif_pos h]
  rfl

/-- The byte that the code of a character has in front or behind. -/
theorem ofNat_eq_of_toNat_eq (byte : UInt8) {n : Nat} (h : byte.toNat = n) :
    UInt8.ofNat n = byte := by
  rw [← h, UInt8.ofNat_toNat]

/-- A byte within the bounds of a continuation is the continuation of any code with its six last
bits. -/
theorem continuation_eq (byte : UInt8) {code : Nat} (hleast : 0x80 ≤ byte.toNat)
    (hgreatest : byte.toNat ≤ 0xbf) (hcode : code % 64 = byte.toNat % 64) :
    continuation code = byte :=
  ofNat_eq_of_toNat_eq byte (by omega)

/-- Following bytes that complete a character begin with a byte within the bounds. -/
theorem exists_cons_of_follow {count least greatest bits width : Nat} {bytes : List UInt8}
    {c : Char} {total : Nat} (h : follow (count + 1) least greatest bits width bytes =
      .char c total) :
    ∃ byte rest, bytes = byte :: rest ∧ least ≤ byte.toNat ∧ byte.toNat ≤ greatest ∧
      follow count 0x80 0xbf (bits * 64 + byte.toNat % 64) (width + 1) rest = .char c total := by
  cases bytes with
  | nil => cases h
  | cons byte rest =>
      rw [follow] at h
      split at h
      · next hbounds => exact ⟨byte, rest, rfl, hbounds.1, hbounds.2, h⟩
      · cases h

/-- **A piece that is a character is its encoding.** -/
theorem eq_encodeChar_of_piece {byte : UInt8} {rest : List UInt8} {c : Char} {width : Nat}
    (h : piece byte rest = .char c width) :
    width = (encodeChar c).length ∧ ∃ tail, byte :: rest = encodeChar c ++ tail := by
  unfold piece at h
  split at h
  · cases h
  · next lead hlead =>
      obtain ⟨hform, hleast, hgreatest⟩ := Lead.form_of_of? hlead
      cases hform with
      | one hbyte hfollowing hbits =>
          rw [hfollowing, hbits, follow] at h
          cases h
          have hvalid : byte.toNat.isValidChar := Or.inl (by omega)
          rw [encodeChar, toNat_ofNat_of_valid hvalid, if_pos hbyte, UInt8.ofNat_toNat]
          exact ⟨rfl, rest, rfl⟩
      | two hlow hhigh hfollowing hbits =>
          rw [hfollowing] at h
          obtain ⟨b, rest, rfl, hb, hb', h⟩ := exists_cons_of_follow h
          rw [follow] at h
          cases h
          have hvalid : (lead.bits * 64 + b.toNat % 64).isValidChar := Or.inl (by omega)
          rw [encodeChar, toNat_ofNat_of_valid hvalid, if_neg (by omega), if_pos (by omega),
            ofNat_eq_of_toNat_eq byte (by omega),
            continuation_eq b (by omega) (by omega) (by omega)]
          exact ⟨rfl, rest, rfl⟩
      | three hlow hhigh hfollowing hbits hshort hpair =>
          rw [hfollowing] at h
          obtain ⟨b, rest, rfl, hb, hb', h⟩ := exists_cons_of_follow h
          obtain ⟨b', rest, rfl, hb₂, hb₂', h⟩ := exists_cons_of_follow h
          rw [follow] at h
          cases h
          -- the narrower bounds after 0xed keep the halves of pairs out
          have hvalid : ((lead.bits * 64 + b.toNat % 64) * 64 + b'.toNat % 64).isValidChar := by
            rcases Nat.lt_trichotomy byte.toNat 0xed with hlt | heq | hgt
            · exact Or.inl (by omega)
            · exact Or.inl (by have := hpair heq; omega)
            · exact Or.inr ⟨by omega, by omega⟩
          have hshort' : byte.toNat = 0xe0 → 0xa0 ≤ b.toNat := fun heq => by
            have := hshort heq
            omega
          rw [encodeChar, toNat_ofNat_of_valid hvalid, if_neg (by omega), if_neg (by omega),
            if_pos (by omega), ofNat_eq_of_toNat_eq byte (by omega),
            continuation_eq b (by omega) (by omega) (by omega),
            continuation_eq b' (by omega) (by omega) (by omega)]
          exact ⟨rfl, rest, rfl⟩
      | four hlow hhigh hfollowing hbits hshort hlast =>
          rw [hfollowing] at h
          obtain ⟨b, rest, rfl, hb, hb', h⟩ := exists_cons_of_follow h
          obtain ⟨b', rest, rfl, hb₂, hb₂', h⟩ := exists_cons_of_follow h
          obtain ⟨b'', rest, rfl, hb₃, hb₃', h⟩ := exists_cons_of_follow h
          rw [follow] at h
          cases h
          have hshort' : byte.toNat = 0xf0 → 0x90 ≤ b.toNat := fun heq => by
            have := hshort heq
            omega
          have hlast' : byte.toNat = 0xf4 → b.toNat ≤ 0x8f := fun heq => by
            have := hlast heq
            omega
          have hvalid : (((lead.bits * 64 + b.toNat % 64) * 64 + b'.toNat % 64) * 64 +
              b''.toNat % 64).isValidChar := Or.inr ⟨by omega, by omega⟩
          rw [encodeChar, toNat_ofNat_of_valid hvalid, if_neg (by omega), if_neg (by omega),
            if_neg (by omega), ofNat_eq_of_toNat_eq byte (by omega),
            continuation_eq b (by omega) (by omega) (by omega),
            continuation_eq b' (by omega) (by omega) (by omega),
            continuation_eq b'' (by omega) (by omega) (by omega)]
          exact ⟨rfl, rest, rfl⟩

/-! ### Texts -/

/-- Pieces that are all characters are the encodings of these characters. -/
theorem eq_flatMap_of_charsOf {bytes : List UInt8} {position : Nat} {cs : List Char}
    (h : charsOf position (pieces bytes) = .ok cs) : bytes = cs.flatMap encodeChar := by
  induction hlength : bytes.length using Nat.strongRecOn generalizing bytes position cs with
  | _ length ih =>
      subst hlength
      cases bytes with
      | nil =>
          rw [pieces] at h
          cases h
          rfl
      | cons byte rest =>
          rw [pieces] at h
          cases hpiece : piece byte rest with
          | broken width reason =>
              rw [hpiece] at h
              cases h
          | char c width =>
              rw [hpiece, charsOf] at h
              obtain ⟨hwidth, tail, htail⟩ := eq_encodeChar_of_piece hpiece
              obtain ⟨cs', hcs', h⟩ := exists_of_bind_eq_ok h
              cases h
              -- what is left after the piece is what stands behind the character
              obtain ⟨first, others, hencode, -⟩ := piece_encodeChar c
              have hrest : rest = others ++ tail := by
                rw [hencode] at htail
                exact (List.cons.inj htail).2
              have hdrop : rest.drop ((Piece.char c width).width - 1) = tail := by
                rw [Piece.width, hwidth, hencode, hrest, List.length_cons, Nat.add_sub_cancel,
                  List.drop_left]
              rw [hdrop] at hcs'
              have hlt : tail.length < (byte :: rest).length := by
                rw [hrest, List.length_cons, List.length_append]
                omega
              rw [htail, List.flatMap_cons, ← ih _ hlt hcs' rfl]

/-- **Strict decoding accepts exactly the bytes of texts.** -/
theorem decode_eq_ok_iff {bytes : List UInt8} {cs : List Char} :
    decode bytes = .ok cs ↔ bytes = encode (String.ofList cs) := by
  constructor
  · intro h
    rw [encode, String.toList_ofList]
    exact eq_flatMap_of_charsOf h
  · rintro rfl
    rw [decode_encode, String.toList_ofList]

end LineLint.Text.Utf8
