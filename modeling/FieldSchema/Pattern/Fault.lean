import FieldSchema.Text.Quoted

/-!
# Faults of patterns

Why a pattern cannot be used. Most faults have a position in the pattern, and where the pattern has
several lines the report adds the line and the column.
-/

namespace FieldSchema.Pattern

/-- What is wrong with a pattern. -/
inductive Flaw where
  | danglingEscape
  | badEscape (escape : List Char)
  | incompleteEscape (escape : List Char)
  | octalTooLarge (escape : List Char)
  | undefinedCharacter (name : List Char)
  | missing (what : String)
  | unterminatedName (terminator : Char)
  | openGroup
  | lookBehindGroup
  | badReference (index : Nat)
  | unknownName (name : List Char)
  | badName (name : List Char)
  | badGroupNumber
  | nameTaken (name : List Char) (index taken : Nat)
  | unterminatedSet
  | badRange (low high : List Char)
  | repeatBounds
  | nothingToRepeat
  | multipleRepeat
  | unexpectedEnd
  | unknownExtension (text : List Char)
  | unterminatedComment
  | unterminatedGroup
  | manyBranches
  | lateFlags
  | unbalanced
  | localeFlag
  | alphabetFlags
  | unknownFlag
  | removedAlphabet
  | globalAdded
  | globalRemoved
  | addedAndRemoved
  deriving DecidableEq

def Flaw.message : Flaw → String
  | .danglingEscape => "bad escape (end of pattern)"
  | .badEscape escape => "bad escape " ++ String.ofList escape
  | .incompleteEscape escape => "incomplete escape " ++ String.ofList escape
  | .octalTooLarge escape =>
    "octal escape value " ++ String.ofList escape ++ " outside of range 0-0o377"
  | .undefinedCharacter name => "undefined character name " ++ String.ofList (Text.quoted name)
  | .missing what => "missing " ++ what
  | .unterminatedName terminator =>
    "missing " ++ String.singleton terminator ++ ", unterminated name"
  | .openGroup => "cannot refer to an open group"
  | .lookBehindGroup => "cannot refer to group defined in the same lookbehind subpattern"
  | .badReference index => "invalid group reference " ++ toString index
  | .unknownName name => "unknown group name " ++ String.ofList (Text.quoted name)
  | .badName name => "bad character in group name " ++ String.ofList (Text.quoted name)
  | .badGroupNumber => "bad group number"
  | .nameTaken name index taken =>
    "redefinition of group name " ++ String.ofList (Text.quoted name) ++ " as group "
      ++ toString index ++ "; was group " ++ toString taken
  | .unterminatedSet => "unterminated character set"
  | .badRange low high =>
    "bad character range " ++ String.ofList low ++ "-" ++ String.ofList high
  | .repeatBounds => "min repeat greater than max repeat"
  | .nothingToRepeat => "nothing to repeat"
  | .multipleRepeat => "multiple repeat"
  | .unexpectedEnd => "unexpected end of pattern"
  | .unknownExtension text => "unknown extension " ++ String.ofList text
  | .unterminatedComment => "missing ), unterminated comment"
  | .unterminatedGroup => "missing ), unterminated subpattern"
  | .manyBranches => "conditional backref with more than two branches"
  | .lateFlags => "global flags not at the start of the expression"
  | .unbalanced => "unbalanced parenthesis"
  | .localeFlag => "bad inline flags: cannot use 'L' flag with a str pattern"
  | .alphabetFlags => "bad inline flags: flags 'a', 'u' and 'L' are incompatible"
  | .unknownFlag => "unknown flag"
  | .removedAlphabet => "bad inline flags: cannot turn off flags 'a', 'u' and 'L'"
  | .globalAdded => "bad inline flags: cannot turn on global flag"
  | .globalRemoved => "bad inline flags: cannot turn off global flag"
  | .addedAndRemoved => "bad inline flags: flag turned on and off"

/-- Why a pattern cannot be used. The last three have no position. -/
inductive Fault where
  | flaw (f : Flaw) (position : Nat)
  | lookBehindWidth
  | lookBehindTooFar
  | templateRepeat (greed : String)
  | repeatTooLarge
  | alphabetConflict
  | tooDeep
  deriving DecidableEq

def Fault.message (pattern : List Char) : Fault → String
  | .flaw f position =>
    let before := pattern.take position
    let place :=
      if pattern.contains '\n' then
        let line := before.count '\n' + 1
        let column := position + 1 -
          (if before.contains '\n' then
            before.length - (before.reverse.takeWhile (· ≠ '\n')).length
          else 0)
        " (line " ++ toString line ++ ", column " ++ toString column ++ ")"
      else ""
    f.message ++ " at position " ++ toString position ++ place
  | .lookBehindWidth => "look-behind requires fixed-width pattern"
  | .lookBehindTooFar => "looks too much behind"
  | .templateRepeat greed => "internal: unsupported template operator " ++ greed
  | .repeatTooLarge => "the repetition number is too large"
  | .alphabetConflict => "ASCII and UNICODE flags are incompatible"
  | .tooDeep => "maximum recursion depth exceeded"

end FieldSchema.Pattern
