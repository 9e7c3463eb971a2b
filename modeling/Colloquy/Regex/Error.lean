import Colloquy.Text.Quoted

/-! What can be wrong with a regular expression. -/

namespace Colloquy.Regex

/-- What is wrong with a regular expression, with the text that shows it. -/
inductive Fault where
  | openGroup
  | closedTooOften
  | openComment
  | openSet
  | endsEarly
  | nothingToRepeat
  | repeatedTwice
  | emptyRange
  | badRange (first last : String)
  | badEscape (written : String)
  | loneBackslash
  | shortEscape (written : String)
  | largeOctal (written : String)
  | noSuchGroup (index : Nat)
  | groupStillOpen
  | groupOfSameLookBehind
  | unknownExtension (written : String)
  | missingName
  | openName (closer : Char)
  | badName (name : String)
  | unknownName (name : String)
  | repeatedName (name : String) (index earlier : Nat)
  | zeroGroup
  | thirdBranch
  | lateFlags
  | unknownFlag
  | openFlags
  | missingFlag
  | openFlagsOff
  | localeFlag
  | clashingFlags
  | fixedFlagOff
  | flagOnAndOff
  | looseLookBehind
deriving DecidableEq

def Fault.text : Fault → String
  | .openGroup => "missing ), unterminated subpattern"
  | .closedTooOften => "unbalanced parenthesis"
  | .openComment => "missing ), unterminated comment"
  | .openSet => "unterminated character set"
  | .endsEarly => "unexpected end of pattern"
  | .nothingToRepeat => "nothing to repeat"
  | .repeatedTwice => "multiple repeat"
  | .emptyRange => "min repeat greater than max repeat"
  | .badRange first last => s!"bad character range {first}-{last}"
  | .badEscape written => s!"bad escape {written}"
  | .loneBackslash => "bad escape (end of pattern)"
  | .shortEscape written => s!"incomplete escape {written}"
  | .largeOctal written => s!"octal escape value {written} outside of range 0-0o377"
  | .noSuchGroup index => s!"invalid group reference {index}"
  | .groupStillOpen => "cannot refer to an open group"
  | .groupOfSameLookBehind => "cannot refer to group defined in the same lookbehind subpattern"
  | .unknownExtension written => s!"unknown extension ?{written}"
  | .missingName => "missing group name"
  | .openName closer => s!"missing {closer}, unterminated name"
  | .badName name => s!"bad character in group name {Text.quoted name}"
  | .unknownName name => s!"unknown group name {Text.quoted name}"
  | .repeatedName name index earlier =>
    s!"redefinition of group name {Text.quoted name} as group {index}; was group {earlier}"
  | .zeroGroup => "bad group number"
  | .thirdBranch => "conditional backref with more than two branches"
  | .lateFlags => "global flags not at the start of the expression"
  | .unknownFlag => "unknown flag"
  | .openFlags => "missing -, : or )"
  | .missingFlag => "missing flag"
  | .openFlagsOff => "missing :"
  | .localeFlag => "bad inline flags: cannot use 'L' flag with a str pattern"
  | .clashingFlags => "bad inline flags: flags 'a', 'u' and 'L' are incompatible"
  | .fixedFlagOff => "bad inline flags: cannot turn off flags 'a', 'u' and 'L'"
  | .flagOnAndOff => "bad inline flags: flag turned on and off"
  | .looseLookBehind => "look-behind requires fixed-width pattern"

/-- Why a text is no regular expression: a fault, with its place if it has one, a number of
repetitions that is too large or has too many digits to be read, or too many groups inside one
another. -/
inductive Error where
  | fault (f : Fault) (place : Option Nat)
  | countTooLarge
  | countTooLong
  | tooDeep
deriving DecidableEq

def lineAndColumn (source : List Char) (place : Nat) : Nat × Nat :=
  let before := source.take place
  (before.count '\n' + 1, (before.reverse.takeWhile (· != '\n')).length + 1)

/-- A fault with its place in the source, by line and column too if there are several lines. -/
def describe (source : List Char) (f : Fault) : Option Nat → String
  | none => f.text
  | some place =>
    let (line, column) := lineAndColumn source place
    s!"{f.text} at position {place}" ++
      if source.contains '\n' then s!" (line {line}, column {column})" else ""

end Colloquy.Regex
