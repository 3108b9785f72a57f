/-
**Classes of characters in a pattern.**

A class is a list of items, each a code point, a range or one of the named categories, and may be
negated.  A class that ignores case looks at the lower-case form of a character, and its items are
prepared for that when the class is made: `CharItem.folded` says how.

Main definitions:

* `LineLint.Pattern.CharItem`, `LineLint.Pattern.CharClass` — items and classes;
* `LineLint.Pattern.CharItem.holds`, `LineLint.Pattern.CharClass.holds` — membership;
* `LineLint.Pattern.CharClass.make` — the class of items under given flags;
* `LineLint.Pattern.CharClass.literal`, `LineLint.Pattern.CharClass.any` — the classes of a single
  character and of the dot.
-/

import LineLint.Text.Blank
import LineLint.Text.Case
import LineLint.Text.Category

set_option relaxedAutoImplicit false
set_option autoImplicit false

namespace LineLint.Pattern

/-- How the characters of a part of a pattern are read. -/
structure Flags where
  /-- Upper and lower case are the same. -/
  ignoreCase : Bool := false
  /-- The line anchors also hold at line feeds. -/
  multiline : Bool := false
  /-- The dot also stands for a line feed. -/
  dotAll : Bool := false
  /-- Blanks and comments in the pattern are passed over. -/
  spaced : Bool := false
  /-- Categories and case know ASCII only. -/
  ascii : Bool := false
  deriving DecidableEq, Repr

/-- The named categories of characters. -/
inductive Kind where
  | digit
  | space
  | word
  deriving DecidableEq, Repr

/-- Whether a character is of a kind. -/
def Kind.holds (kind : Kind) (ascii : Bool) (c : Char) : Bool :=
  match kind with
  | .digit => if ascii then c.isDigit else Text.isDecimal c
  | .space => if ascii then c == ' ' || (9 ≤ c.toNat && c.toNat ≤ 13) else Text.isBlank c
  | .word => if ascii then c.isAlphanum || c == '_' else Text.isWord c

/-- An item of a class.  Code points are numbers because a pattern may name some that are no
characters. -/
inductive CharItem where
  /-- One code point. -/
  | single (code : Nat)
  /-- The code points from `least` to `greatest`. -/
  | range (least greatest : Nat)
  /-- The lower-case forms of the code points from `least` to `greatest`, and their variants. -/
  | foldedRange (least greatest : Nat)
  /-- The characters of a kind, or all others. -/
  | ofKind (kind : Kind) (ascii negated : Bool)
  deriving DecidableEq, Repr

/-- The greatest code point of the basic plane. -/
def basicPlane : Nat := 0xffff

/-- Whether the lower-case code point `code` is the form of one from `least` to `greatest`: some
spelling of it or of one of its variants lies there in the basic plane, or, for a range that goes
beyond that plane, the code point itself or its upper-case form lies in the range. -/
def inFoldedRange (least greatest code : Nat) : Bool :=
  let basic := (code :: Text.caseVariants code).any (fun variant =>
    (Text.spellings variant).any (fun source =>
      decide (least ≤ source) && decide (source ≤ greatest) && decide (source ≤ basicPlane)))
  let upper := Text.upperCode code
  basic || (decide (basicPlane < greatest) &&
    ((decide (least ≤ code) && decide (code ≤ greatest)) ||
      (decide (least ≤ upper) && decide (upper ≤ greatest))))

/-- Whether an item holds of a character. -/
def CharItem.holds (item : CharItem) (c : Char) : Bool :=
  match item with
  | .single code => c.toNat == code
  | .range least greatest => decide (least ≤ c.toNat) && decide (c.toNat ≤ greatest)
  | .foldedRange least greatest => inFoldedRange least greatest c.toNat
  | .ofKind kind ascii negated => kind.holds ascii c != negated

/-- A class of characters. -/
structure CharClass where
  /-- Whether the class has the characters that no item holds of. -/
  negated : Bool
  /-- How a character is changed before the items look at it. -/
  ignoreCase : Bool
  /-- Whether only ASCII letters change. -/
  ascii : Bool
  items : List CharItem
  deriving DecidableEq, Repr

/-- The lower-case form of a character, as far as the flags ask for it. -/
def foldChar (ignoreCase ascii : Bool) (c : Char) : Char :=
  if ignoreCase then
    Char.ofNat (if ascii then Text.asciiLowerCode c.toNat else Text.lowerCode c.toNat)
  else
    c

/-- Whether a character belongs to a class. -/
def CharClass.holds (cls : CharClass) (c : Char) : Bool :=
  let c := foldChar cls.ignoreCase cls.ascii c
  cls.items.any (fun item => item.holds c) != cls.negated

/-- The lower-case form of a code point and all its variants. -/
def foldedCodes (ascii : Bool) (code : Nat) : List Nat :=
  if ascii then
    [Text.asciiLowerCode code]
  else
    Text.lowerCode code :: Text.caseVariants (Text.lowerCode code)

/-- The letters of one case that a range of code points has, moved to lower case. -/
def asciiFoldedRange (least greatest : Nat) : List CharItem :=
  let low := max least 65
  let high := min greatest 90
  if low ≤ high then
    [.range least greatest, .range (low + 32) (high + 32)]
  else
    [.range least greatest]

/-- The items that hold of the lower-case form of a character when the given item holds of one of
its case forms.  A code point beyond the basic plane stays as it is written. -/
def CharItem.folded (ascii : Bool) : CharItem → List CharItem
  | .single code =>
    if code ≤ basicPlane || ascii then (foldedCodes ascii code).map .single else [.single code]
  | .range least greatest =>
    if ascii then asciiFoldedRange least greatest else [.foldedRange least greatest]
  | item => [item]

namespace CharClass

/-- The class that one code point makes. -/
def literal (flags : Flags) (code : Nat) : CharClass :=
  if flags.ignoreCase then
    ⟨false, true, flags.ascii, (foldedCodes flags.ascii code).map .single⟩
  else
    ⟨false, false, flags.ascii, [.single code]⟩

/-- The class that some items make. -/
def make (flags : Flags) (negated : Bool) (items : List CharItem) : CharClass :=
  match items.eraseDups with
  | [.single code] => { literal flags code with negated }
  | items =>
    if flags.ignoreCase then
      ⟨negated, true, flags.ascii, items.flatMap (CharItem.folded flags.ascii)⟩
    else
      ⟨negated, false, flags.ascii, items⟩

/-- The class of the dot: all characters but the line feed, or all. -/
def any (flags : Flags) : CharClass :=
  if flags.dotAll then ⟨true, false, false, []⟩ else ⟨true, false, false, [.single 10]⟩

end CharClass

end LineLint.Pattern
