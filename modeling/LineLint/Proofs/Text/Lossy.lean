/-
**Bytes that are no character damage only themselves.**

A piece of some bytes ends at the latest before a byte that cannot go on with a character, whether
it is broken or not.  The bytes of a character begin with such a byte, and a line feed is one.  So
what stands before a text is decoded on its own, and so is what stands behind it; and the lines of
what is decoded are those of the bytes.

Main definitions:

* `LineLint.Text.Utf8.Fresh` — bytes that do not go on with a character.

Main results:

* `LineLint.Text.Utf8.decodeLossyChars_append` — fresh bytes are decoded on their own;
* `LineLint.Text.Utf8.splitAt_decodeLossyChars` — the lines of what is decoded;
* `LineLint.Text.Utf8.decodeLossy_confines_damage` — **bytes that are no character damage only
  themselves**.
-/

import LineLint.Proofs.Scan.Joined
import LineLint.Proofs.Text.Pieces

set_option relaxedAutoImplicit false
set_option autoImplicit false

namespace LineLint.Text.Utf8

/-- Bytes that do not go on with a character: there are none, or the first one is no continuation
byte. -/
def Fresh (bytes : List UInt8) : Prop :=
  ∀ byte, bytes.head? = some byte → byte.toNat < 0x80 ∨ 0xbf < byte.toNat

theorem fresh_cons {byte : UInt8} (h : byte.toNat < 0x80 ∨ 0xbf < byte.toNat)
    (rest : List UInt8) : Fresh (byte :: rest) := by
  rintro _ ⟨⟩
  exact h

/-! ### One piece -/

/-- Two pieces that are decoded to the same character and leave the same bytes: the reasons why
they are broken may differ. -/
def Piece.Alike (a b : Piece) : Prop := a.toChar = b.toChar ∧ a.width = b.width

/-- Bytes that cannot go on with a character end it just as the end of the data does. -/
theorem follow_append {tail : List UInt8} (htail : Fresh tail) {count least greatest : Nat}
    (hleast : 0x80 ≤ least) (hgreatest : greatest ≤ 0xbf) (bits width : Nat)
    (bytes : List UInt8) :
    (follow count least greatest bits width (bytes ++ tail)).Alike
      (follow count least greatest bits width bytes) := by
  induction count generalizing least greatest bits width bytes with
  | zero => simp [follow, Piece.Alike]
  | succ count ih =>
      cases bytes with
      | nil =>
          cases tail with
          | nil => exact ⟨rfl, rfl⟩
          | cons byte tail =>
              have hbyte := htail byte rfl
              have hstop : follow (count + 1) least greatest bits width (byte :: tail) =
                  .broken width .badContinuation := by
                rw [follow, if_neg (by omega)]
              rw [List.nil_append, hstop]
              exact ⟨rfl, rfl⟩
      | cons byte bytes =>
          rw [List.cons_append, follow, follow]
          split
          · exact ih (Nat.le_refl _) (Nat.le_refl _) _ _ bytes
          · exact ⟨rfl, rfl⟩

theorem piece_append {tail : List UInt8} (htail : Fresh tail) (byte : UInt8)
    (bytes : List UInt8) : (piece byte (bytes ++ tail)).Alike (piece byte bytes) := by
  unfold piece
  split
  · exact ⟨rfl, rfl⟩
  · next lead hlead =>
      obtain ⟨-, hleast, hgreatest⟩ := Lead.form_of_of? hlead
      exact follow_append htail hleast hgreatest _ _ _

/-- A piece has no more bytes than there are. -/
theorem width_follow_le (count least greatest bits width : Nat) (bytes : List UInt8) :
    (follow count least greatest bits width bytes).width ≤ width + bytes.length := by
  induction count generalizing least greatest bits width bytes with
  | zero => exact Nat.le_add_right _ _
  | succ count ih =>
      cases bytes with
      | nil => exact Nat.le_refl _
      | cons byte bytes =>
          rw [follow]
          split
          · have hle := ih 0x80 0xbf (bits * 64 + byte.toNat % 64) (width + 1) bytes
            rw [List.length_cons]
            omega
          · exact Nat.le_add_right _ _

theorem width_piece_le (byte : UInt8) (bytes : List UInt8) :
    (piece byte bytes).width ≤ 1 + bytes.length := by
  unfold piece
  split
  · exact Nat.le_add_right _ _
  · exact width_follow_le _ _ _ _ _ _

/-! ### All pieces -/

@[simp] theorem decodeLossyChars_nil : decodeLossyChars [] = [] := by
  rw [decodeLossyChars, pieces]
  rfl

/-- Fresh bytes are decoded on their own, whatever stands before them. -/
theorem decodeLossyChars_append {tail : List UInt8} (htail : Fresh tail) (bytes : List UInt8) :
    decodeLossyChars (bytes ++ tail) = decodeLossyChars bytes ++ decodeLossyChars tail := by
  induction hlength : bytes.length using Nat.strongRecOn generalizing bytes with
  | _ length ih =>
      subst hlength
      cases bytes with
      | nil =>
          rw [decodeLossyChars_nil]
          rfl
      | cons byte bytes =>
          obtain ⟨hchar, hwidth⟩ := piece_append htail byte bytes
          have hle := width_piece_le byte bytes
          have hdrop : (bytes ++ tail).drop ((piece byte bytes).width - 1) =
              bytes.drop ((piece byte bytes).width - 1) ++ tail :=
            List.drop_append_of_le_length (by omega)
          have hrest := ih (bytes.drop ((piece byte bytes).width - 1)).length
            (by rw [List.length_drop, List.length_cons]; omega) _ rfl
          rw [decodeLossyChars, decodeLossyChars] at hrest
          rw [decodeLossyChars, decodeLossyChars, List.cons_append, pieces, pieces, List.map_cons,
            List.map_cons, hchar, hwidth, hdrop, hrest, decodeLossyChars, List.cons_append]

/-- The bytes of a character begin with a byte that does not go on with another one. -/
theorem fresh_encodeChar_append (c : Char) (rest : List UInt8) : Fresh (encodeChar c ++ rest) := by
  have hvalid : c.toNat < 0xd800 ∨ 0xdfff < c.toNat ∧ c.toNat < 0x110000 := c.valid
  rw [encodeChar]
  split
  · exact fresh_cons (by rw [toNat_ofNat_of_lt] <;> omega) _
  · split
    · exact fresh_cons (by rw [toNat_ofNat_of_lt] <;> omega) _
    · split
      · exact fresh_cons (by rw [toNat_ofNat_of_lt] <;> omega) _
      · exact fresh_cons (by rw [toNat_ofNat_of_lt] <;> omega) _

/-- The bytes of a text are decoded to it, and what follows them is decoded on its own. -/
theorem decodeLossyChars_encode_append (text : String) (rest : List UInt8) :
    decodeLossyChars (encode text ++ rest) = text.toList ++ decodeLossyChars rest := by
  rw [decodeLossyChars, encode, pieces_encode_append, List.map_append, List.map_map,
    decodeLossyChars]
  congr 1
  exact List.map_id' text.toList

theorem decodeLossyChars_encode (text : String) : decodeLossyChars (encode text) = text.toList := by
  have hchars := decodeLossyChars_encode_append text []
  rwa [decodeLossyChars_nil, List.append_nil, List.append_nil] at hchars

theorem decodeLossy_encode (text : String) : decodeLossy (encode text) = text := by
  rw [decodeLossy, decodeLossyChars_encode, String.ofList_toList]

/-- A text that is not empty keeps what stands around its bytes apart. -/
theorem decodeLossy_around (before after : List UInt8) {text : String} (htext : text ≠ "") :
    decodeLossy (before ++ encode text ++ after) =
      decodeLossy before ++ text ++ decodeLossy after := by
  have hfresh : Fresh (encode text ++ after) := by
    obtain ⟨c, cs, hcs⟩ : ∃ c cs, text.toList = c :: cs :=
      List.exists_cons_of_ne_nil (by simpa using htext)
    rw [encode, hcs, List.flatMap_cons, List.append_assoc]
    exact fresh_encodeChar_append c _
  rw [List.append_assoc, decodeLossy, decodeLossyChars_append hfresh,
    decodeLossyChars_encode_append, ← List.append_assoc, String.ofList_append,
    String.ofList_append, String.ofList_toList, decodeLossy, decodeLossy]

/-! ### Lines -/

/-- Only a line feed is decoded to a line feed. -/
theorem eq_lineFeed_of_toChar_piece {byte : UInt8} {rest : List UInt8}
    (h : (piece byte rest).toChar = '\n') : byte = 10 := by
  cases hpiece : piece byte rest with
  | broken width reason =>
      rw [hpiece] at h
      cases h
  | char c width =>
      rw [hpiece] at h
      cases h
      obtain ⟨-, tail, htail⟩ := eq_encodeChar_of_piece hpiece
      exact (List.cons.inj htail).1

theorem lineFeed_not_mem_decodeLossyChars {bytes : List UInt8} (h : 10 ∉ bytes) :
    '\n' ∉ decodeLossyChars bytes := by
  unfold decodeLossyChars
  induction bytes using pieces.induct with
  | case1 =>
      rw [pieces]
      simp
  | case2 byte rest first ih =>
      rw [pieces, List.map_cons, List.mem_cons, not_or]
      obtain ⟨hbyte, hrest⟩ := not_or.1 (mt List.mem_cons.2 h)
      refine ⟨fun heq => hbyte (eq_lineFeed_of_toChar_piece heq.symm).symm, ih fun hmem => ?_⟩
      exact hrest (List.mem_of_mem_drop hmem)

/-- The lines of what is decoded are what is decoded of the lines. -/
theorem splitAt_decodeLossyChars (bytes : List UInt8) :
    splitAt '\n' (decodeLossyChars bytes) = (bytes.splitOn 10).map decodeLossyChars := by
  induction hlength : bytes.length using Nat.strongRecOn generalizing bytes with
  | _ length ih =>
      subst hlength
      by_cases hmem : 10 ∈ bytes
      · obtain ⟨before, after, rfl, hbefore⟩ := List.eq_append_cons_of_mem hmem
        have hfeed : decodeLossyChars (10 :: after) = '\n' :: decodeLossyChars after :=
          decodeLossyChars_encode_append "\n" after
        rw [decodeLossyChars_append (fresh_cons (Or.inl (by decide)) after), hfeed,
          splitAt_append_cons, splitAt_of_not_mem (lineFeed_not_mem_decodeLossyChars hbefore),
          List.splitOn_append_cons_self_of_not_mem hbefore, List.map_cons,
          ih _ (by simp; omega) after rfl]
        rfl
      · rw [splitAt_of_not_mem (lineFeed_not_mem_decodeLossyChars hmem),
          List.splitOn_eq_singleton hmem]
        rfl

theorem lines_decodeLossy (bytes : List UInt8) :
    lines (decodeLossy bytes) = (bytes.splitOn 10).map decodeLossyChars := by
  rw [lines, decodeLossy, String.toList_ofList, splitAt_decodeLossyChars]

theorem decodeLossy_ne_empty {bytes : List UInt8} (h : bytes ≠ []) : decodeLossy bytes ≠ "" := by
  obtain ⟨byte, rest, rfl⟩ := List.exists_cons_of_ne_nil h
  rw [decodeLossy, decodeLossyChars, pieces, List.map_cons]
  simp

/-- **Bytes that are no character damage only themselves.**  What stands before the bytes of a text
and what stands behind them is decoded as if it stood alone, so a text comes back as it is.  The
lines of what is decoded are the segments of the bytes between the line feeds, each decoded on its
own; so the issues of a scan carry the numbers of these segments, whatever matcher makes it. -/
theorem decodeLossy_confines_damage :
    (∀ (before after : List UInt8) (text : String), text ≠ "" →
      decodeLossy (before ++ encode text ++ after) =
        decodeLossy before ++ text ++ decodeLossy after) ∧
    (∀ text : String, decodeLossy (encode text) = text) ∧
    (∀ bytes : List UInt8,
      lines (decodeLossy bytes) = (bytes.splitOn 10).map decodeLossyChars) ∧
    ∀ (set : RuleSet) (matcher : Matcher), matcher.Used set →
      ∀ (source : String) (language : Option String) (bytes : List UInt8), bytes ≠ [] →
        (matcher.scan source (decodeLossy bytes) language).1 =
          ((bytes.splitOn 10).zipIdx 1).flatMap fun segment =>
            scanLine (set.applicable (chosenLanguage source language)) source segment.2
              (decodeLossyChars segment.1) := by
  refine ⟨fun before after text htext => decodeLossy_around before after htext,
    decodeLossy_encode, lines_decodeLossy, fun set matcher h source language bytes hbytes => ?_⟩
  rw [(h.faithful.scan _ _ _).1, set.scan_eq_flatMap source language (decodeLossy_ne_empty hbytes),
    lines_decodeLossy, List.zipIdx_map, List.flatMap_map]
  rfl

/-- A text between the start of a character that is cut short and a byte that goes on with none; and
a scan behind a line that is no text at all. -/
theorem decodeLossy_confines_damage_of_both_sides :
    let rule : Rule := { id := "x", pattern := "x", message := "m", severity := "info" }
    let set : RuleSet := ⟨[⟨rule, .chars (Pattern.CharClass.literal {} 120)⟩]⟩
    let bytes : List UInt8 := [0xf0, 0x9f, 10, 0xff, 0x78]
    RuleSet.ofRules [rule] = .ok set ∧
      decodeLossy ([0xe2, 0x82] ++ encode "é\r\n\u0000" ++ [0x82, 0x61]) =
        decodeLossy [0xe2, 0x82] ++ "é\r\n\u0000" ++ decodeLossy [0x82, 0x61] ∧
      (Matcher.scan { rules := set } "a" (decodeLossy bytes) none).1 =
        ((bytes.splitOn 10).zipIdx 1).flatMap (fun segment =>
          scanLine (set.applicable (chosenLanguage "a" none)) "a" segment.2
            (decodeLossyChars segment.1)) ∧
      (Matcher.scan { rules := set } "a" (decodeLossy bytes) none).1.map
        (fun issue => (issue.line, issue.column)) = [(.number 2, .number 2)] := by
  intro rule set bytes
  have hset : RuleSet.ofRules [rule] = .ok set := by decide +kernel
  obtain ⟨haround, -, -, hscan⟩ := decodeLossy_confines_damage
  exact ⟨hset, haround _ _ _ (by decide), hscan set _ .fresh "a" none bytes (by decide),
    by decide +kernel⟩

end LineLint.Text.Utf8
