/-
**What can be wrong with a pattern.**

Main definitions:

* `LineLint.Pattern.Fault` — the faults;
* `LineLint.Pattern.Fault.crash?` — the failure that a fault is, if nobody expects it;
* `LineLint.Pattern.Error` — a fault and the place of it;
* `LineLint.Pattern.Error.message` — the message, with line and column for a pattern of several
  lines.
-/

import LineLint.Crash

set_option relaxedAutoImplicit false
set_option autoImplicit false

namespace LineLint.Pattern

/-- The faults of a pattern.  Texts are the parts of the pattern that the message shows. -/
inductive Fault where
  | danglingBackslash
  | badEscape (shown : String)
  | incompleteEscape (shown : String)
  | octalTooLarge (shown : String)
  | missingBrace
  | unknownCharacterName (name : String)
  | noSuchGroup (index : Nat)
  | openGroup
  | groupInSameLookBehind
  | unterminatedClass
  | badRange (first second : String)
  | repetitionReversed
  | nothingToRepeat
  | repeatedTwice
  | unexpectedEnd
  | missingGroupName
  | unterminatedName (terminator : Char)
  | missingCharacterName
  | badGroupName (name : String)
  | unknownGroupName (name : String)
  | groupNameTaken (name : String) (index earlier : Nat)
  | badGroupNumber
  | tooManyBranches
  | unknownExtension (shown : String)
  | unterminatedComment
  | unterminatedGroup
  | unbalancedParenthesis
  | flagsNotAtStart
  | localeFlag
  | incompatibleFlags
  | unknownFlag
  | missingFlagsEnd
  | missingFlag
  | missingColon
  | globalFlagScoped
  | globalFlagTurnedOff
  | typeFlagTurnedOff
  | flagOnAndOff
  | variableLookBehind
  | distantLookBehind
  | repetitionInTemplate (operator : String)
  /-- The reading breaks off, which is not expected of a pattern. -/
  | crash (cause : Crash)
  deriving DecidableEq, Repr

/-- The words for a fault. -/
def Fault.message : Fault → String
  | .danglingBackslash => "bad escape (end of pattern)"
  | .badEscape shown => "bad escape " ++ shown
  | .incompleteEscape shown => "incomplete escape " ++ shown
  | .octalTooLarge shown => "octal escape value " ++ shown ++ " outside of range 0-0o377"
  | .missingBrace => "missing \x7b"
  | .unknownCharacterName name => "undefined character name " ++ Text.quoted name
  | .noSuchGroup index => "invalid group reference " ++ Text.natural index
  | .openGroup => "cannot refer to an open group"
  | .groupInSameLookBehind => "cannot refer to group defined in the same lookbehind subpattern"
  | .unterminatedClass => "unterminated character set"
  | .badRange first second => "bad character range " ++ first ++ "-" ++ second
  | .repetitionReversed => "min repeat greater than max repeat"
  | .nothingToRepeat => "nothing to repeat"
  | .repeatedTwice => "multiple repeat"
  | .unexpectedEnd => "unexpected end of pattern"
  | .missingGroupName => "missing group name"
  | .unterminatedName terminator =>
    "missing " ++ String.singleton terminator ++ ", unterminated name"
  | .missingCharacterName => "missing character name"
  | .badGroupName name => "bad character in group name " ++ Text.quoted name
  | .unknownGroupName name => "unknown group name " ++ Text.quoted name
  | .groupNameTaken name index earlier =>
    "redefinition of group name " ++ Text.quoted name ++ " as group " ++ Text.natural index ++
      "; was group " ++ Text.natural earlier
  | .badGroupNumber => "bad group number"
  | .tooManyBranches => "conditional backref with more than two branches"
  | .unknownExtension shown => "unknown extension ?" ++ shown
  | .unterminatedComment => "missing ), unterminated comment"
  | .unterminatedGroup => "missing ), unterminated subpattern"
  | .unbalancedParenthesis => "unbalanced parenthesis"
  | .flagsNotAtStart => "global flags not at the start of the expression"
  | .localeFlag => "bad inline flags: cannot use 'L' flag with a str pattern"
  | .incompatibleFlags => "bad inline flags: flags 'a', 'u' and 'L' are incompatible"
  | .unknownFlag => "unknown flag"
  | .missingFlagsEnd => "missing -, : or )"
  | .missingFlag => "missing flag"
  | .missingColon => "missing :"
  | .globalFlagScoped => "bad inline flags: cannot turn on global flag"
  | .globalFlagTurnedOff => "bad inline flags: cannot turn off global flag"
  | .typeFlagTurnedOff => "bad inline flags: cannot turn off flags 'a', 'u' and 'L'"
  | .flagOnAndOff => "bad inline flags: flag turned on and off"
  | .variableLookBehind => "look-behind requires fixed-width pattern"
  | .distantLookBehind => "looks too much behind"
  | .repetitionInTemplate operator => "internal: unsupported template operator " ++ operator
  | .crash cause => cause.message

/-- The failure that a fault is, if nobody expects it of a pattern. -/
def Fault.crash? : Fault → Option Crash
  | .crash cause => some cause
  | _ => none

/-- A fault and the number of characters before it, if it has a place. -/
structure Error where
  fault : Fault
  position : Option Nat
  deriving DecidableEq, Repr

/-- The message for an error in the given pattern text. -/
def Error.message (error : Error) (source : String) : String :=
  match error.position with
  | none => error.fault.message
  | some position =>
    let cs := source.toList
    let before := cs.take position
    let line := before.count '\n' + 1
    let column := (before.reverse.takeWhile (· != '\n')).length + 1
    let place := " at position " ++ Text.natural position
    let detail :=
      if cs.contains '\n' then
        " (line " ++ Text.natural line ++ ", column " ++ Text.natural column ++ ")"
      else
        ""
    error.fault.message ++ place ++ detail

end LineLint.Pattern
