/-
**UTF-8, strictly and with replacement.**

Bytes are cut from the left into pieces: each piece is a well-formed character, or the longest
start of one that the next byte, or the end of the data, makes impossible.  Decoding with
replacement puts one replacement character for every ill-formed piece; strict decoding refuses the
first one and says where and why.

Main definitions:

* `LineLint.Text.Utf8.piece` — the first piece of some bytes;
* `LineLint.Text.Utf8.pieces` — all pieces, from left to right;
* `LineLint.Text.Utf8.decodeLossy` — decoding with replacement;
* `LineLint.Text.Utf8.decode` — strict decoding;
* `LineLint.Text.Utf8.encode` — the bytes of a text.
-/

import LineLint.Text.Numeral

set_option relaxedAutoImplicit false
set_option autoImplicit false

namespace LineLint.Text.Utf8

/-- Why a piece is no character. -/
inductive Reason where
  /-- The first byte cannot begin a character. -/
  | badStart
  /-- The next byte cannot go on with the character. -/
  | badContinuation
  /-- The data end before the character does. -/
  | cutShort
  deriving DecidableEq, Repr

/-- A piece of some bytes. -/
inductive Piece where
  /-- A well-formed character and the number of its bytes. -/
  | char (c : Char) (width : Nat)
  /-- Bytes that are no character. -/
  | broken (width : Nat) (reason : Reason)
  deriving DecidableEq, Repr

/-- The number of bytes of a piece. -/
def Piece.width : Piece → Nat
  | .char _ width => width
  | .broken width _ => width

/-- What the first byte of a character says: how many bytes follow, the bounds of the first of
them, and the bits that the first byte contributes. -/
structure Lead where
  following : Nat
  least : Nat
  greatest : Nat
  bits : Nat

/-- The reading of a byte as the first one of a character. -/
def Lead.of? (byte : Nat) : Option Lead :=
  if byte < 0x80 then some ⟨0, 0x80, 0xbf, byte⟩
  else if byte < 0xc2 then none
  else if byte < 0xe0 then some ⟨1, 0x80, 0xbf, byte - 0xc0⟩
  else if byte = 0xe0 then some ⟨2, 0xa0, 0xbf, 0⟩
  else if byte = 0xed then some ⟨2, 0x80, 0x9f, 13⟩
  else if byte < 0xf0 then some ⟨2, 0x80, 0xbf, byte - 0xe0⟩
  else if byte = 0xf0 then some ⟨3, 0x90, 0xbf, 0⟩
  else if byte < 0xf4 then some ⟨3, 0x80, 0xbf, byte - 0xf0⟩
  else if byte = 0xf4 then some ⟨3, 0x80, 0x8f, 4⟩
  else none

/-- Reads the bytes that follow the first one.  `bits` is the number read so far and `width` the
count of bytes that belong to it. -/
def follow : Nat → Nat → Nat → Nat → Nat → List UInt8 → Piece
  | 0, _, _, bits, width, _ => .char (Char.ofNat bits) width
  | _ + 1, _, _, _, width, [] => .broken width .cutShort
  | count + 1, least, greatest, bits, width, byte :: rest =>
    if least ≤ byte.toNat ∧ byte.toNat ≤ greatest then
      follow count 0x80 0xbf (bits * 64 + byte.toNat % 64) (width + 1) rest
    else
      .broken width .badContinuation

/-- The piece that begins with `byte`, with the bytes after it in `rest`. -/
def piece (byte : UInt8) (rest : List UInt8) : Piece :=
  match Lead.of? byte.toNat with
  | none => .broken 1 .badStart
  | some lead => follow lead.following lead.least lead.greatest lead.bits 1 rest

/-- The pieces of some bytes, from left to right. -/
def pieces : List UInt8 → List Piece
  | [] => []
  | byte :: rest =>
    let first := piece byte rest
    first :: pieces (rest.drop (first.width - 1))
termination_by bytes => bytes.length
decreasing_by simp only [List.length_drop, List.length_cons]; omega

/-- The character that stands for bytes that are no character. -/
def replacement : Char := Char.ofNat 0xfffd

/-- The character of a piece, or the replacement for one. -/
def Piece.toChar : Piece → Char
  | .char c _ => c
  | .broken _ _ => replacement

/-- The characters of some bytes, with a replacement for every ill-formed piece. -/
def decodeLossyChars (bytes : List UInt8) : List Char :=
  (pieces bytes).map Piece.toChar

/-- The text of some bytes, with a replacement for every ill-formed piece. -/
def decodeLossy (bytes : List UInt8) : String :=
  String.ofList (decodeLossyChars bytes)

/-- The first ill-formed piece of some bytes. -/
structure Error where
  /-- The place of its first byte. -/
  position : Nat
  /-- The number of its bytes. -/
  width : Nat
  /-- Why it is no character. -/
  reason : Reason
  deriving DecidableEq, Repr

/-- The characters of the pieces, the first of which stands at `position`, if all are
well formed. -/
def charsOf (position : Nat) : List Piece → Except Error (List Char)
  | [] => .ok []
  | .char c width :: rest => do
    let cs ← charsOf (position + width) rest
    return c :: cs
  | .broken width reason :: _ => .error ⟨position, width, reason⟩

/-- The characters of some bytes, all of which must be well formed. -/
def decode (bytes : List UInt8) : Except Error (List Char) :=
  charsOf 0 (pieces bytes)

/-- The words for a reason. -/
def Reason.message : Reason → String
  | .badStart => "invalid start byte"
  | .badContinuation => "invalid continuation byte"
  | .cutShort => "unexpected end of data"

/-- The message for the first ill-formed piece of `bytes`: a single byte is named, several are
given by their range. -/
def Error.message (error : Error) (bytes : List UInt8) : String :=
  let place :=
    if error.width = 1 then
      "byte 0x" ++ String.ofList (hexDigits 2 (bytes.getD error.position 0).toNat) ++
        " in position " ++ natural error.position
    else
      "bytes in position " ++ natural error.position ++ "-" ++
        natural (error.position + error.width - 1)
  "'utf-8' codec can't decode " ++ place ++ ": " ++ error.reason.message

/-- A byte that goes on with a character and holds six of its bits. -/
def continuation (bits : Nat) : UInt8 := UInt8.ofNat (0x80 + bits % 64)

/-- The bytes of a character. -/
def encodeChar (c : Char) : List UInt8 :=
  let code := c.toNat
  if code < 0x80 then
    [UInt8.ofNat code]
  else if code < 0x800 then
    [UInt8.ofNat (0xc0 + code / 64), continuation code]
  else if code < 0x10000 then
    [UInt8.ofNat (0xe0 + code / 4096), continuation (code / 64), continuation code]
  else
    [UInt8.ofNat (0xf0 + code / 262144), continuation (code / 4096), continuation (code / 64),
      continuation code]

/-- The bytes of a text. -/
def encode (text : String) : List UInt8 :=
  text.toList.flatMap encodeChar

end LineLint.Text.Utf8
