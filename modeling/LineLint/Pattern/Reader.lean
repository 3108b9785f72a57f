/-
**Reading a pattern.**

The reader goes through the tokens once.  A parenthesis opens a frame, in which the items of the
current alternative and the finished alternatives collect until the parenthesis is closed and the
whole group becomes one item of the frame around it.

Main definitions:

* `LineLint.Pattern.Frame`, `LineLint.Pattern.Reading` — an open group, and the state of the
  reader;
* `LineLint.Pattern.readClass` — a class in brackets;
* `LineLint.Pattern.readQuantifier` — a repetition of the last item;
* `LineLint.Pattern.readOpening` — what follows an opening parenthesis;
* `LineLint.Pattern.Reading.close` — a closing parenthesis;
* `LineLint.Pattern.parse` — the pattern of a text, or what is wrong with it.
-/

import LineLint.Pattern.Escape
import LineLint.Pattern.Width
import LineLint.Text.Whole

set_option relaxedAutoImplicit false
set_option autoImplicit false

namespace LineLint.Pattern

/-! ### The state of the reader -/

/-- Whether an item can be repeated. -/
inductive Role where
  /-- It can. -/
  | ordinary
  /-- It cannot: it is an anchor. -/
  | anchor
  /-- It cannot: it is a repetition. -/
  | repeated
  deriving DecidableEq, Repr

/-- An item of an alternative. -/
structure Item where
  pattern : Pattern
  role : Role := .ordinary
  deriving Repr

/-- How a group was opened. -/
inductive Opener where
  /-- The whole pattern, which no parenthesis opened. -/
  | whole
  /-- A group that remembers nothing. -/
  | plain
  /-- A group that remembers its span. -/
  | capture (index : Nat)
  | atomic
  | ahead (positive : Bool)
  /-- A condition on what stands before; `outermost` says that it is in no other one. -/
  | behind (positive outermost : Bool)
  | conditional (index : Nat)
  deriving DecidableEq, Repr

/-- An open group. -/
structure Frame where
  opener : Opener
  /-- The place of the parenthesis. -/
  start : Nat
  flags : Flags
  /-- The finished alternatives, last first. -/
  branches : List Pattern := []
  /-- The items of the current alternative, last first. -/
  items : List Item := []
  deriving Repr

/-- The pattern of the current alternative. -/
def Frame.branch (frame : Frame) : Pattern :=
  ofList (frame.items.reverse.map Item.pattern)

/-- All alternatives, in order. -/
def Frame.alternatives (frame : Frame) : List Pattern :=
  (frame.branch :: frame.branches).reverse

/-- The state of the reader. -/
structure Reading where
  input : Input
  /-- The innermost open group. -/
  frame : Frame
  /-- The groups around it, innermost first. -/
  outer : List Frame := []
  /-- The number of the next group that remembers its span. -/
  nextGroup : Nat := 1
  /-- The widths of the closed groups. -/
  widths : List (Nat × Width) := []
  /-- The names of groups. -/
  names : List (String × Nat) := []
  /-- Inside a condition on what stands before: the number of the first group in it. -/
  behindFrom : Option Nat := none
  /-- Groups that conditions asked for by number, with the place of the first time. -/
  asked : List (Nat × Nat) := []
  /-- The flags that were turned on for the whole pattern. -/
  wholeFlags : List Char := []
  deriving Repr

namespace Reading

/-- The reader with one more item in the current alternative. -/
def push (r : Reading) (item : Item) : Reading :=
  { r with frame := { r.frame with items := item :: r.frame.items } }

/-- The flags in force. -/
def flags (r : Reading) : Flags := r.frame.flags

/-- Whether a group is closed. -/
def isClosed (r : Reading) (index : Nat) : Bool :=
  r.widths.any (fun entry => entry.1 == index)

/-- The width of a closed group. -/
def groupWidth (r : Reading) (index : Nat) : Width := (r.widths.lookup index).getD ⟨0, some 0⟩

/-- The width of a pattern, given those of the closed groups. -/
def widthOf (r : Reading) (pattern : Pattern) : Width := width r.groupWidth pattern

/-- Whether the whole pattern is to know ASCII letters only, and all letters too. -/
def clashes (r : Reading) : Bool := r.wholeFlags.contains 'a' && r.wholeFlags.contains 'u'

/-- The reader inside a new group. -/
def enter (r : Reading) (opener : Opener) (start : Nat) (flags : Flags) : Reading :=
  { r with frame := ⟨opener, start, flags, [], []⟩, outer := r.frame :: r.outer }

/-- Whether a group can be referred to from inside a condition on what stands before. -/
def checkBehind (r : Reading) (index : Nat) : Except Error Unit :=
  match r.behindFrom with
  | none => .ok ()
  | some first =>
    if !r.isClosed index then r.input.fail .openGroup 0
    else if first ≤ index then r.input.fail .groupInSameLookBehind 0
    else .ok ()

end Reading

/-! ### Classes -/

/-- Reads a member of a class whose first token has been read. -/
def readMember (names : String → Option Nat) (flags : Flags) (token : Token) (start : Nat)
    (input : Input) : Except Error (CharItem × Input) :=
  match token with
  | .plain c => .ok (.single c.toNat, input)
  | .escaped c => readClassEscape names flags c start input
  | .dangling => .ok (.single 92, input)

/-- The range between two members, which stand before the place of `input`. -/
def rangeOf (first second : CharItem) (firstToken secondToken : Token) (input : Input) :
    Except Error CharItem :=
  let bad : Except Error CharItem :=
    input.fail (.badRange firstToken.text secondToken.text)
      (firstToken.width + 1 + secondToken.width)
  match first, second with
  | .single least, .single greatest =>
    if greatest < least then bad else .ok (.range least greatest)
  | _, _ => bad

/-- Reads the members of the class whose bracket stands at `start`, up to the closing bracket.  The
members read so far are in `read`, and `fuel` bounds the number of members. -/
def readMembers (names : String → Option Nat) (flags : Flags) (start : Nat) :
    Nat → List CharItem → Input → Except Error (List CharItem × Input)
  | 0, _, _ => Input.failAt .unterminatedClass start
  | fuel + 1, read, input => do
    let (token, after) ← input.take
    match token with
    | none => Input.failAt .unterminatedClass start
    | some token =>
      if token = .plain ']' ∧ !read.isEmpty then
        return (read, after)
      else
        let (first, after) ← readMember names flags token input.position after
        match ← after.accept? '-' with
        | none => readMembers names flags start fuel (read ++ [first]) after
        | some afterDash =>
          let (secondToken, last) ← afterDash.take
          match secondToken with
          | none => Input.failAt .unterminatedClass start
          | some secondToken =>
            if secondToken = .plain ']' then
              return (read ++ [first, .single 45], last)
            else
              let (second, last) ← readMember names flags secondToken afterDash.position last
              let range ← rangeOf first second token secondToken last
              readMembers names flags start fuel (read ++ [range]) last

/-- Reads the class whose opening bracket stands at `start` and has been read. -/
def readClass (names : String → Option Nat) (r : Reading) (start : Nat) :
    Except Error Reading := do
  let negation ← r.input.accept? '^'
  let inner := negation.getD r.input
  let (items, after) ← readMembers names r.flags start (inner.rest.length + 1) [] inner
  let cls := CharClass.make r.flags negation.isSome items
  return { r with input := after }.push ⟨.chars cls, .ordinary⟩

/-! ### Repetitions -/

/-- The bounds of a repetition. -/
structure Bounds where
  least : Nat
  most : Option Nat

/-- The number of repetitions that is too large to be counted. -/
def repetitionLimit : Nat := 4294967295

/-- The bound that some digits give; none without digits. -/
def boundOf (digits : List Char) : Except Error (Option Nat) :=
  if digits.isEmpty then
    .ok none
  else if Text.digitLimit < digits.length then
    .error ⟨.crash (.longNumber digits.length), none⟩
  else if repetitionLimit ≤ numberOf 10 digits then
    .error ⟨.crash .repetitionTooLarge, none⟩
  else
    .ok (some (numberOf 10 digits))

/-- The bounds between two braces.  Without digits before the comma the least number is zero,
without digits after it there is no greatest. -/
def boundsOf (low high : List Char) (start : Nat) : Except Error Bounds := do
  let least ← boundOf low
  let most ← boundOf high
  let least := least.getD 0
  if most.any (fun m => decide (m < least)) then
    Input.failAt .repetitionReversed start
  else
    return ⟨least, most⟩

/-- Reads bounds after an opening brace; none if the brace is an ordinary character. -/
def readBounds (input : Input) : Except Error (Option (Bounds × Input)) := do
  if input.next? = some (.plain '\x7d') then
    return none
  let (low, afterLow) ← input.takeChars Char.isDigit input.rest.length
  let comma ← afterLow.accept? ','
  let (high, afterHigh) ←
    match comma with
    | none => pure (low, afterLow)
    | some inner => inner.takeChars Char.isDigit inner.rest.length
  match ← afterHigh.accept? '\x7d' with
  | none => return none
  | some last =>
    let bounds ← boundsOf low high input.position
    return some (bounds, last)

/-- The last item, repeated, for a quantifier that stands at `start`. -/
def repeatLast (r : Reading) (start : Nat) (bounds : Bounds) : Except Error Reading :=
  match r.frame.items with
  | [] => Input.failAt .nothingToRepeat start
  | item :: items =>
    match item.role with
    | .anchor => Input.failAt .nothingToRepeat start
    | .repeated => Input.failAt .repeatedTwice start
    | .ordinary => do
      let lazyInput ← r.input.accept? '?'
      let possessiveInput ← r.input.accept? '+'
      let (mode, after) :=
        match lazyInput, possessiveInput with
        | some after, _ => (Mode.lazy, after)
        | none, some after => (Mode.possessive, after)
        | none, none => (Mode.greedy, r.input)
      let whole : Item := ⟨.repeated item.pattern bounds.least bounds.most mode, .repeated⟩
      return { r with input := after, frame := { r.frame with items := whole :: items } }

/-- Reads the quantifier `c`, which stands at `start` and has been read. -/
def readQuantifier (r : Reading) (c : Char) (start : Nat) : Except Error Reading :=
  match c with
  | '?' => repeatLast r start ⟨0, some 1⟩
  | '*' => repeatLast r start ⟨0, none⟩
  | '+' => repeatLast r start ⟨1, none⟩
  | _ => do
    match ← readBounds r.input with
    | none => return r.push ⟨.chars (CharClass.literal r.flags c.toNat), .ordinary⟩
    | some (bounds, after) => repeatLast { r with input := after } start bounds

/-! ### Flags -/

/-- The letters of flags. -/
def isFlag (c : Char) : Bool := "iLmsxatu".toList.contains c

/-- The flag that a token is, if it is one. -/
def flagOf? (token : Token) : Option Char :=
  match token with
  | .plain c => if isFlag c then some c else none
  | _ => none

/-- The fault for a token that is no flag: a letter is an unknown flag. -/
def notFlag (token : Token) (otherwise : Fault) : Fault :=
  match token with
  | .plain c => if Text.isLetter c then .unknownFlag else otherwise
  | _ => otherwise

/-- Flags that are turned on, and flags that are turned off. -/
structure FlagChange where
  on : List Char
  off : List Char
  deriving Repr

/-- Flags under a change. -/
def Flags.apply (flags : Flags) (change : FlagChange) : Flags :=
  let set (old : Bool) (c : Char) : Bool :=
    (old || change.on.contains c) && !change.off.contains c
  { ignoreCase := set flags.ignoreCase 'i'
    multiline := set flags.multiline 'm'
    dotAll := set flags.dotAll 's'
    spaced := set flags.spaced 'x'
    ascii := (flags.ascii || change.on.contains 'a') && !change.on.contains 'u' }

/-- Reads flags to turn on, the first of which is `flag`, up to the character after them. -/
def readOn : Nat → List Char → Char → Input → Except Error (List Char × Char × Input)
  | 0, _, _, input => input.fail .missingFlagsEnd 0
  | fuel + 1, read, flag, input => do
    if flag = 'L' then
      input.fail .localeFlag 0
    else
      let read := read ++ [flag]
      if read.contains 'a' && read.contains 'u' then
        input.fail .incompatibleFlags 0
      else
        let (token, after) ← input.take
        match token with
        | none => after.fail .missingFlagsEnd 0
        | some token =>
          match token, flagOf? token with
          | _, some next => readOn fuel read next after
          | .plain c, none =>
            if c = ')' || c = '-' || c = ':' then
              return (read, c, after)
            else
              after.fail (notFlag token .missingFlagsEnd) token.width
          | _, none => after.fail .missingFlagsEnd token.width

/-- Reads flags to turn off, the first of which is `flag`, and the colon after them. -/
def readOff : Nat → List Char → Char → Input → Except Error (List Char × Input)
  | 0, _, _, input => input.fail .missingColon 0
  | fuel + 1, read, flag, input => do
    if flag = 'a' || flag = 'u' || flag = 'L' then
      input.fail .typeFlagTurnedOff 0
    else
      let read := read ++ [flag]
      let (token, after) ← input.take
      match token with
      | none => after.fail .missingColon 0
      | some token =>
        if token = .plain ':' then
          return (read, after)
        else
          match flagOf? token with
          | some next => readOff fuel read next after
          | none => after.fail (notFlag token .missingColon) token.width

/-- Reads the flags to turn off after a minus sign. -/
def readOffAfterMinus (input : Input) : Except Error (List Char × Input) := do
  let (token, after) ← input.take
  match token with
  | none => after.fail .missingFlag 0
  | some token =>
    match flagOf? token with
    | some flag => readOff (after.rest.length + 1) [] flag after
    | none => after.fail (notFlag token .missingFlag) token.width

/-- Reads a change of flags that begins with `first`, a flag or a minus sign.  The result says
whether the change is for the whole pattern. -/
def readFlags (first : Char) (input : Input) : Except Error (Bool × FlagChange × Input) := do
  let (on, ending, after) ←
    if first = '-' then pure ([], '-', input)
    else readOn (input.rest.length + 1) [] first input
  if ending = ')' then
    return (true, ⟨on, []⟩, after)
  else if on.contains 't' then
    after.fail .globalFlagScoped 1
  else
    let (off, last) ← if ending = '-' then readOffAfterMinus after else pure ([], after)
    if off.contains 't' then
      last.fail .globalFlagTurnedOff 1
    else if on.any (fun flag => off.contains flag) then
      last.fail .flagOnAndOff 1
    else
      return (false, ⟨on, off⟩, last)

/-- Reads a change of flags after the parenthesis at `start`. -/
def openFlags (r : Reading) (start : Nat) (first : Char) : Except Error Reading := do
  let (whole, change, after) ← readFlags first r.input
  let r := { r with input := after }
  let flags := r.flags.apply change
  if whole then
    if r.outer.isEmpty && r.frame.branches.isEmpty && r.frame.items.isEmpty then
      return { r with
        frame := { r.frame with flags := flags }
        wholeFlags := r.wholeFlags ++ change.on }
    else
      Input.failAt .flagsNotAtStart start
  else
    return r.enter .plain start flags

/-! ### Groups -/

/-- Opens a group that remembers its span, with a name if one is given. -/
def openCapture (r : Reading) (start : Nat) (name : Option String) : Except Error Reading :=
  let index := r.nextGroup
  let inner := { r with nextGroup := index + 1 }.enter (.capture index) start r.flags
  match name with
  | none => .ok inner
  | some name =>
    match r.names.lookup name with
    | some earlier => r.input.fail (.groupNameTaken name index earlier) (name.length + 1)
    | none => .ok { inner with names := (name, index) :: r.names }

/-- Adds a reference to a group by number; `back` leads to the place of a fault. -/
def refer (r : Reading) (index back : Nat) : Except Error Reading := do
  if !r.isClosed index then
    r.input.fail .openGroup back
  else
    r.checkBehind index
    return r.push ⟨.backref index r.flags.ignoreCase r.flags.ascii, .ordinary⟩

/-- Reads a named group or a reference by name. -/
def openNamed (r : Reading) (start : Nat) : Except Error Reading := do
  match ← r.input.accept? '<' with
  | some inner =>
    let (name, after) ← inner.groupName '>'
    if !Text.isName name.toList then
      after.fail (.badGroupName name) (name.length + 1)
    else
      openCapture { r with input := after } start (some name)
  | none =>
    match ← r.input.accept? '=' with
    | some inner =>
      let (name, after) ← inner.groupName ')'
      if !Text.isName name.toList then
        after.fail (.badGroupName name) (name.length + 1)
      else
        match r.names.lookup name with
        | none => after.fail (.unknownGroupName name) (name.length + 1)
        | some index => refer { r with input := after } index (name.length + 1)
    | none =>
      let (token, after) ← r.input.take
      match token with
      | none => after.fail .unexpectedEnd 0
      | some token => after.fail (.unknownExtension ("P" ++ token.text)) (token.width + 2)

/-- Reads the rest of a comment in parentheses that begins at `start`. -/
def skipComment (start : Nat) : Nat → Input → Except Error Input
  | 0, _ => Input.failAt .unterminatedComment start
  | fuel + 1, input => do
    let (token, after) ← input.take
    match token with
    | none => Input.failAt .unterminatedComment start
    | some token => if token = .plain ')' then return after else skipComment start fuel after

/-- The number that no group can have. -/
def groupLimit : Nat := 1073741823

/-- The number of the group that a condition names. -/
def conditionGroup (r : Reading) (name : String) (input : Input) :
    Except Error (Nat × List (Nat × Nat)) :=
  if Text.isName name.toList then
    match r.names.lookup name with
    | none => input.fail (.unknownGroupName name) (name.length + 1)
    | some index => .ok (index, r.asked)
  else
    match Text.readWhole? name with
    | some (.ofNat index) =>
      if index = 0 then
        input.fail .badGroupNumber (name.length + 1)
      else if groupLimit ≤ index then
        input.fail (.noSuchGroup index) (name.length + 1)
      else if (r.asked.lookup index).isSome then
        .ok (index, r.asked)
      else
        .ok (index, r.asked ++ [(index, input.position - (name.length + 1))])
    | _ => input.fail (.badGroupName name) (name.length + 1)

/-- Opens a choice between two patterns on whether a group has a span. -/
def openConditional (r : Reading) (start : Nat) : Except Error Reading := do
  let (name, after) ← r.input.groupName ')'
  let (index, asked) ← conditionGroup r name after
  let r := { r with input := after, asked := asked }
  r.checkBehind index
  return r.enter (.conditional index) start r.flags

/-- Opens a condition on what stands before the place. -/
def openBehind (r : Reading) (start : Nat) : Except Error Reading := do
  let (token, after) ← r.input.take
  match token with
  | none => after.fail .unexpectedEnd 0
  | some token =>
    if token = .plain '=' || token = .plain '!' then
      let inner := { r with input := after }.enter
        (.behind (token == Token.plain '=') r.behindFrom.isNone) start r.flags
      return { inner with behindFrom := some (r.behindFrom.getD r.nextGroup) }
    else
      after.fail (.unknownExtension ("<" ++ token.text)) (token.width + 2)

/-- Reads what follows the parenthesis at `start` and a question mark. -/
def openExtension (r : Reading) (start : Nat) : Except Error Reading := do
  let (token, after) ← r.input.take
  let r := { r with input := after }
  match token with
  | none => after.fail .unexpectedEnd 0
  | some (.plain 'P') => openNamed r start
  | some (.plain ':') => return r.enter .plain start r.flags
  | some (.plain '#') =>
    let last ← skipComment start (after.rest.length + 1) after
    return { r with input := last }
  | some (.plain '=') => return r.enter (.ahead true) start r.flags
  | some (.plain '!') => return r.enter (.ahead false) start r.flags
  | some (.plain '<') => openBehind r start
  | some (.plain '(') => openConditional r start
  | some (.plain '>') => return r.enter .atomic start r.flags
  | some (.plain c) =>
    if isFlag c || c = '-' then openFlags r start c
    else after.fail (.unknownExtension (String.singleton c)) 2
  | some token => after.fail (.unknownExtension token.text) (token.width + 1)

/-- Reads what follows the parenthesis at `start`. -/
def readOpening (r : Reading) (start : Nat) : Except Error Reading := do
  match ← r.input.accept? '?' with
  | none => openCapture r start none
  | some inner => openExtension { r with input := inner } start

/-- The item that a finished group makes in the frame around it. -/
def Reading.finishGroup (r : Reading) : Reading × Item :=
  let body := oneOf r.frame.alternatives
  match r.frame.opener with
  | .whole | .plain => (r, ⟨body, .ordinary⟩)
  | .capture index =>
    ({ r with widths := (index, r.widthOf body) :: r.widths }, ⟨.group index body, .ordinary⟩)
  | .atomic => (r, ⟨.atomic body, .ordinary⟩)
  | .ahead positive => (r, ⟨.lookAhead positive body, .ordinary⟩)
  | .behind positive outermost =>
    ({ r with behindFrom := if outermost then none else r.behindFrom },
      ⟨.lookBehind positive ((r.widthOf body).fixed?.getD 0) body, .ordinary⟩)
  | .conditional index =>
    let (present, absent) :=
      match r.frame.alternatives with
      | [present, absent] => (present, absent)
      | _ => (body, .empty)
    (r, ⟨.ifGroup index present absent, .ordinary⟩)

/-- Closes the innermost group with the parenthesis that is next. -/
def Reading.close (r : Reading) : Except Error Reading :=
  match r.outer with
  | [] =>
    if r.clashes then .error ⟨.crash .clashingFlags, none⟩
    else r.input.fail .unbalancedParenthesis 0
  | frame :: outer => do
    let after ← r.input.advance
    let (r, item) := { r with input := after }.finishGroup
    return { r with frame := frame, outer := outer }.push item

/-- Begins the next alternative at the bar that is next. -/
def Reading.nextBranch (r : Reading) : Except Error Reading :=
  match r.frame.opener, r.frame.branches with
  | .conditional _, _ :: _ => r.input.fail .tooManyBranches 0
  | _, _ => do
    let after ← r.input.advance
    let frame := { r.frame with branches := r.frame.branch :: r.frame.branches, items := [] }
    return { r with input := after, frame := frame }

/-! ### The whole pattern -/

/-- Passes over a comment up to the end of its line. -/
def skipLine : Nat → Input → Except Error Input
  | 0, input => .ok input
  | fuel + 1, input => do
    let (token, after) ← input.take
    match token with
    | none => return after
    | some token => if token = .plain '\n' then return after else skipLine fuel after

/-- Blanks that a pattern with spacing passes over. -/
def isSpacing (c : Char) : Bool := c == ' ' || (9 ≤ c.toNat && c.toNat ≤ 13)

/-- Adds what an escape stands for. -/
def pushEscape (r : Reading) (escape : Escape) : Except Error Reading :=
  match escape with
  | .code code => .ok (r.push ⟨.chars (CharClass.literal r.flags code), .ordinary⟩)
  | .kind kind negated =>
    .ok (r.push ⟨.chars (CharClass.make r.flags false [.ofKind kind r.flags.ascii negated]),
      .ordinary⟩)
  | .anchor condition => .ok (r.push ⟨.anchor condition, .anchor⟩)
  | .reference index start =>
    if index < r.nextGroup then
      refer r index (r.input.position - start)
    else
      Input.failAt (.noSuchGroup index) (start + 1)

/-- Reads the item whose first token stands at `start` and has been read. -/
def readItem (names : String → Option Nat) (r : Reading) (token : Token) (start : Nat) :
    Except Error Reading :=
  match token with
  | .dangling => .ok r
  | .escaped c => do
    let (escape, after) ← readEscape names r.flags c start r.input
    pushEscape { r with input := after } escape
  | .plain c =>
    if r.flags.spaced && isSpacing c then
      .ok r
    else if r.flags.spaced && c = '#' then do
      let after ← skipLine (r.input.rest.length + 1) r.input
      return { r with input := after }
    else if c = '[' then
      readClass names r start
    else if c = '*' || c = '+' || c = '?' || c = '\x7b' then
      readQuantifier r c start
    else if c = '(' then
      readOpening r start
    else if c = '.' then
      .ok (r.push ⟨.chars (CharClass.any r.flags), .ordinary⟩)
    else if c = '^' then
      .ok (r.push ⟨.anchor (.lineStart r.flags.multiline), .anchor⟩)
    else if c = '$' then
      .ok (r.push ⟨.anchor (.lineEnd r.flags.multiline), .anchor⟩)
    else
      .ok (r.push ⟨.chars (CharClass.literal r.flags c.toNat), .ordinary⟩)

/-- Reads on from the next token, if there is one. -/
def Reading.step (names : String → Option Nat) (r : Reading) : Except Error Reading :=
  match r.input.next? with
  | none => .ok r
  | some (.plain ')') => r.close
  | some (.plain '|') => r.nextBranch
  | some token => do
    let after ← r.input.advance
    readItem names { r with input := after } token r.input.position

/-- As many steps as the first argument says. -/
def Reading.steps (names : String → Option Nat) : Nat → Reading → Except Error Reading
  | 0, r => .ok r
  | count + 1, r => do
    let r ← r.step names
    steps names count r

/-- The pattern of a reader that has come to the end of the text. -/
def Reading.finish (r : Reading) : Except Error Pattern :=
  if !r.outer.isEmpty then
    Input.failAt .unterminatedGroup r.frame.start
  else if r.clashes then
    .error ⟨.crash .clashingFlags, none⟩
  else
    match r.asked.find? (fun entry => decide (r.nextGroup ≤ entry.1)) with
    | some (index, place) => Input.failAt (.noSuchGroup index) place
    | none =>
      let pattern := oneOf r.frame.alternatives
      match lateFault? (r.wholeFlags.contains 't') r.groupWidth pattern with
      | some fault => .error ⟨fault, none⟩
      | none => .ok pattern

/-- The pattern of a text, in which characters can be given by the names of a table.  Every step
reads at least one token, so there are at most as many steps as tokens. -/
def parse (source : String) (names : String → Option Nat := fun _ => none) :
    Except Error Pattern := do
  let input ← Input.ofText source.toList
  let start : Reading := { input := input, frame := ⟨.whole, 0, {}, [], []⟩ }
  let r ← start.steps names input.rest.length
  r.finish

end LineLint.Pattern
