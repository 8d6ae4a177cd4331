import FieldSchema.Calendar.Shown
import FieldSchema.Number.Reading

/-!
# Faults of declaration texts

Most faults are flaws of the notation. The others are scalars that have the form of a number, a
truth value or a date and do not denote one.
-/

namespace FieldSchema.Markup

/-- What is wrong with the notation of a text. -/
inductive Flaw where
  | unprintable
  | unexpectedCharacter
  | keyWithoutValue
  | entryNotAllowed
  | keyNotAllowed
  | valueNotAllowed
  | badDirective
  | badAnchor
  | badTag
  | badBlockHeader
  | unterminatedText
  | separatorInText
  | badEscape
  | unexpectedToken
  | repeatedDirective
  | undefinedHandle
  | undefinedAlias
  | repeatedAnchor
  | severalDocuments
  | undefinedTag
  | wrongNode
  | badKey
  | badMerge
  | tooDeep
  deriving DecidableEq

/-- Why a text gives no value. -/
inductive Fault where
  | flaw (f : Flaw)
  | notCharacter
  | codeTooLarge
  | notWhole (base : Nat) (text : List Char)
  | tooManyDigits (count : Nat)
  | notDecimal (text : List Char)
  | emptyNumber
  | notTruth (text : List Char)
  | notDate
  | calendar (fault : CalendarFault)
  | offset (micros : Int)
  deriving DecidableEq

/-- The report of a fault. All flaws of the notation are reported alike. -/
def Fault.message : Fault → String
  | .flaw _ => "the text is not well formed"
  | .notCharacter => "chr() arg not in range(0x110000)"
  | .codeTooLarge => "Python int too large to convert to C int"
  | .notWhole base text =>
    "invalid literal for int() with base " ++ toString base ++ ": " ++
      String.ofList (Text.quoted text)
  | .tooManyDigits count =>
    "Exceeds the limit (" ++ toString maxDigits ++
      " digits) for integer string conversion: value has " ++ toString count ++
      " digits; use sys.set_int_max_str_digits() to increase the limit"
  | .notDecimal text => "could not convert string to float: " ++ String.ofList (Text.quoted text)
  | .emptyNumber => "string index out of range"
  | .notTruth text => String.ofList (Text.quoted text)
  | .notDate => "'NoneType' object has no attribute 'groupdict'"
  | .calendar fault => fault.message
  | .offset micros => (DateTextFault.offset micros).message

end FieldSchema.Markup
