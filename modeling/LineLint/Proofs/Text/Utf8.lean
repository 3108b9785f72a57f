/-
**Decoding what was encoded.**

The bytes of a character are one piece, whatever bytes follow them; so the bytes of a text are cut
into the pieces of its characters, and decoding them gives the characters back.

Main results:

* `LineLint.Text.Utf8.pieces_encodeChar_append` — the bytes of a character are the first piece of
  any data that begin with them;
* `LineLint.Text.Utf8.pieces_encode_append` — the bytes of a text are the pieces of its characters;
* `LineLint.Text.Utf8.decode_encode` — **strict decoding takes back encoding**.
-/

import LineLint.Text.Utf8

set_option relaxedAutoImplicit false
set_option autoImplicit false

namespace LineLint.Text.Utf8

/-! ### One character -/

theorem toNat_ofNat_of_lt {n : Nat} (h : n < 256) : (UInt8.ofNat n).toNat = n := by
  rw [UInt8.toNat_ofNat']
  omega

/-- A continuation byte within the bounds adds its six bits. -/
theorem follow_continuation {least greatest n : Nat} (hleast : least ≤ 0x80 + n % 64)
    (hgreatest : 0x80 + n % 64 ≤ greatest) (count bits width : Nat) (rest : List UInt8) :
    follow (count + 1) least greatest bits width (continuation n :: rest) =
      follow count 0x80 0xbf (bits * 64 + n % 64) (width + 1) rest := by
  have hbyte : (continuation n).toNat = 0x80 + n % 64 := toNat_ofNat_of_lt (by omega)
  have hbits : (0x80 + n % 64) % 64 = n % 64 := by omega
  rw [follow, hbyte, if_pos ⟨hleast, hgreatest⟩, hbits]

/-- The last continuation byte completes the character. -/
theorem follow_last {least greatest n bits : Nat} {c : Char} (hleast : least ≤ 0x80 + n % 64)
    (hgreatest : 0x80 + n % 64 ≤ greatest) (hbits : bits * 64 + n % 64 = c.toNat) (width : Nat)
    (rest : List UInt8) :
    follow 1 least greatest bits width (continuation n :: rest) = .char c (width + 1) := by
  rw [follow_continuation hleast hgreatest, follow, hbits, Char.ofNat_toNat]

/-- A first byte announces so many bytes, holds the given bits, and allows the continuation byte
of `next` after it. -/
structure Lead.Announces (lead : Lead) (following bits next : Nat) : Prop where
  following_eq : lead.following = following
  bits_eq : lead.bits = bits
  least_le : lead.least ≤ 0x80 + next % 64
  le_greatest : 0x80 + next % 64 ≤ lead.greatest

theorem exists_lead_two {code : Nat} (hlow : 0x80 ≤ code) (hhigh : code < 0x800) :
    ∃ lead, Lead.of? (0xc0 + code / 64) = some lead ∧ lead.Announces 1 (code / 64) code := by
  unfold Lead.of?
  rw [if_neg (by omega), if_neg (by omega), if_pos (by omega)]
  exact ⟨_, rfl, rfl, by simp only; omega, by simp only; omega, by simp only; omega⟩

-- At both ends of a range of first bytes the second one is bounded further: below, so that no
-- character has two encodings, and above, so that no half of a pair and nothing beyond the last
-- code point is one.
theorem exists_lead_three {code : Nat} (hlow : 0x800 ≤ code) (hhigh : code < 0x10000)
    (hvalid : code < 0xd800 ∨ 0xdfff < code) :
    ∃ lead, Lead.of? (0xe0 + code / 4096) = some lead ∧
      lead.Announces 2 (code / 4096) (code / 64) := by
  unfold Lead.of?
  rw [if_neg (by omega), if_neg (by omega), if_neg (by omega)]
  split
  · exact ⟨_, rfl, rfl, by simp only; omega, by simp only; omega, by simp only; omega⟩
  · split
    · exact ⟨_, rfl, rfl, by simp only; omega, by simp only; omega, by simp only; omega⟩
    · rw [if_pos (by omega)]
      exact ⟨_, rfl, rfl, by simp only; omega, by simp only; omega, by simp only; omega⟩

theorem exists_lead_four {code : Nat} (hlow : 0x10000 ≤ code) (hhigh : code < 0x110000) :
    ∃ lead, Lead.of? (0xf0 + code / 262144) = some lead ∧
      lead.Announces 3 (code / 262144) (code / 4096) := by
  unfold Lead.of?
  rw [if_neg (by omega), if_neg (by omega), if_neg (by omega), if_neg (by omega),
    if_neg (by omega), if_neg (by omega)]
  split
  · exact ⟨_, rfl, rfl, by simp only; omega, by simp only; omega, by simp only; omega⟩
  · split
    · exact ⟨_, rfl, rfl, by simp only; omega, by simp only; omega, by simp only; omega⟩
    · rw [if_pos (by omega)]
      exact ⟨_, rfl, rfl, by simp only; omega, by simp only; omega, by simp only; omega⟩

/-- The piece that begins with the byte of a lead. -/
theorem piece_of_announces {code following bits next : Nat} {lead : Lead} (hcode : code < 256)
    (hlead : Lead.of? code = some lead) (h : lead.Announces following bits next)
    (rest : List UInt8) :
    piece (UInt8.ofNat code) rest = follow following lead.least lead.greatest bits 1 rest := by
  rw [piece, toNat_ofNat_of_lt hcode, hlead]
  simp only [h.following_eq, h.bits_eq]

/-- The bytes of a character make one piece, whatever follows them. -/
theorem piece_encodeChar (c : Char) :
    ∃ byte tail, encodeChar c = byte :: tail ∧
      ∀ rest, piece byte (tail ++ rest) = .char c (tail.length + 1) := by
  have hvalid : c.toNat < 0xd800 ∨ 0xdfff < c.toNat ∧ c.toNat < 0x110000 := c.valid
  rw [encodeChar]
  split
  · next hone =>
      refine ⟨_, _, rfl, fun rest => ?_⟩
      rw [piece, toNat_ofNat_of_lt (by omega), Lead.of?, if_pos hone]
      simp [follow]
  · split
    · next hone htwo =>
        refine ⟨_, _, rfl, fun rest => ?_⟩
        obtain ⟨lead, hlead, h⟩ := exists_lead_two (by omega) htwo
        rw [piece_of_announces (by omega) hlead h]
        exact follow_last h.least_le h.le_greatest (by omega) 1 rest
    · split
      · next hone htwo hthree =>
          refine ⟨_, _, rfl, fun rest => ?_⟩
          obtain ⟨lead, hlead, h⟩ := exists_lead_three (by omega) hthree (by omega)
          rw [piece_of_announces (by omega) hlead h, List.cons_append,
            follow_continuation h.least_le h.le_greatest]
          exact follow_last (by omega) (by omega) (by omega) 2 rest
      · next hone htwo hthree =>
          refine ⟨_, _, rfl, fun rest => ?_⟩
          obtain ⟨lead, hlead, h⟩ := @exists_lead_four c.toNat (by omega) (by omega)
          rw [piece_of_announces (by omega) hlead h, List.cons_append,
            follow_continuation h.least_le h.le_greatest, List.cons_append,
            follow_continuation (by omega) (by omega)]
          exact follow_last (by omega) (by omega) (by omega) 3 rest

/-- The bytes of a character are the first piece of any data that begin with them. -/
theorem pieces_encodeChar_append (c : Char) (rest : List UInt8) :
    pieces (encodeChar c ++ rest) = .char c (encodeChar c).length :: pieces rest := by
  obtain ⟨byte, tail, htail, hpiece⟩ := piece_encodeChar c
  rw [htail, List.cons_append, pieces, hpiece]
  simp [Piece.width]

/-! ### Texts -/

/-- The bytes of a text are cut into the pieces of its characters, and what follows them is cut on
its own. -/
theorem pieces_encode_append (cs : List Char) (rest : List UInt8) :
    pieces (cs.flatMap encodeChar ++ rest) =
      cs.map (fun c => .char c (encodeChar c).length) ++ pieces rest := by
  induction cs with
  | nil => rfl
  | cons c cs ih =>
      rw [List.flatMap_cons, List.append_assoc, pieces_encodeChar_append, ih]
      rfl

/-- Pieces that are all characters give those characters, wherever they begin. -/
theorem charsOf_map_char (width : Char → Nat) (position : Nat) (cs : List Char) :
    charsOf position (cs.map (fun c => .char c (width c))) = .ok cs := by
  induction cs generalizing position with
  | nil => rfl
  | cons c cs ih =>
      rw [List.map_cons, charsOf, ih]
      rfl

/-- **Strict decoding takes back encoding.** -/
theorem decode_encode (text : String) : decode (encode text) = .ok text.toList := by
  have hpieces := pieces_encode_append text.toList []
  rw [List.append_nil, pieces, List.append_nil] at hpieces
  rw [decode, encode, hpieces]
  exact charsOf_map_char _ 0 text.toList

end LineLint.Text.Utf8
