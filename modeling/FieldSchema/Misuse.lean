import FieldSchema.Value.Shown
import FieldSchema.Number.Reading
import FieldSchema.Pattern.Fault

/-!
# Misuse

A value of the wrong kind where an operation needs another, or a call that does not fit the
operation. Unlike a faulty declaration or a failed validation, a misuse is not reported in the terms
of the schema.
-/

namespace FieldSchema

/-- What was asked for that could not be done. -/
inductive Misuse where
  | unexpectedKeyword (callee keyword : String)
  | repeatedArgument (callee parameter : String)
  | tooManyArguments (callee : String) (least most given : Nat)
  | missingArguments (callee : String) (parameters : List String)
  | notNumber (method : String) (got : Value)
  | notDateBound (got : Value)
  | notIterable (got : Value)
  | notSequence (kindName : String)
  | notAssignable (got : Value)
  | notContainer (got : Value)
  | notHashable (got : Value)
  | branchNotSchema (got : Value)
  | fieldNotSchema (name got : Value)
  | notComparable (operator : String) (left right : Value)
  | notJoinable (position : Nat) (got : Value)
  | notInteger (got : Value)
  | notPattern
  | notIndex (sequence index : Value)
  | notPart (got : Value)
  | outOfRange (sequence : Value)
  | noAttribute (got : Value) (name : String)
  | methodName (name : Value)
  | notName (got : Value)
  | unknownTypeName (name : Value)
  | pattern (source : String) (fault : Pattern.Fault)
  | noField (name : Value)
  | jsonKey (key : Value)
  | tooManyDigits
  | endless
  deriving Inhabited

namespace Misuse

/-- The families of misuse. -/
inductive Family where
  | kind
  | attribute
  | value
  | index
  | key
  | overflow
  | depth
  | pattern
  | typeName
  deriving DecidableEq

def family : Misuse → Family
  | .noAttribute .. | .notName _ => .attribute
  | .methodName _ | .tooManyDigits => .value
  | .outOfRange _ => .index
  | .noField _ => .key
  | .unknownTypeName _ => .typeName
  | .endless => .depth
  | .pattern _ fault =>
    match fault with
    | .repeatTooLarge => .overflow
    | .alphabetConflict => .value
    | .tooDeep => .depth
    | _ => .pattern
  | _ => .kind

def namesInARow (names : List String) : String :=
  let quoted := names.map fun name => "'" ++ name ++ "'"
  match quoted with
  | [a] => a
  | [a, b] => a ++ " and " ++ b
  | names => ", ".intercalate names.dropLast ++ ", and " ++ names.getLastD ""

def arity (least most : Nat) : String :=
  if least = most then
    "takes " ++ toString most ++
      (if most = 1 then " positional argument" else " positional arguments")
  else "takes from " ++ toString least ++ " to " ++ toString most ++ " positional arguments"

def message : Misuse → String
  | .unexpectedKeyword callee keyword =>
    callee ++ "() got an unexpected keyword argument '" ++ keyword ++ "'"
  | .repeatedArgument callee parameter =>
    callee ++ "() got multiple values for argument '" ++ parameter ++ "'"
  | .tooManyArguments callee least most given =>
    callee ++ "() " ++ arity least most ++ " but " ++ toString given ++
      (if given = 1 then " was given" else " were given")
  | .missingArguments callee parameters =>
    callee ++ "() missing " ++ toString parameters.length ++ " required positional argument" ++
      (if parameters.length = 1 then "" else "s") ++ ": " ++ namesInARow parameters
  | .notNumber method got => method ++ "() expects a number, got " ++ got.shown
  | .notDateBound got => "Date bound must be a date, datetime or ISO string, got " ++ got.shown
  | .notIterable got => "'" ++ got.kindNameInFull ++ "' object is not iterable"
  | .notSequence kindName => "'" ++ kindName ++ "' object is not iterable"
  | .notAssignable got =>
    "'" ++ got.kindNameInFull ++ "' object does not support item assignment"
  | .notContainer got => "argument of type '" ++ got.kindNameInFull ++ "' is not iterable"
  | .notHashable got => "unhashable type: '" ++ got.kindNameInFull ++ "'"
  | .branchNotSchema got => "when() branches must be Schema instances, got " ++ got.kindName
  | .fieldNotSchema name got =>
    "Field '" ++ name.plain ++ "' must be a Schema instance, got " ++ got.kindName
  | .notComparable operator left right =>
    "'" ++ operator ++ "' not supported between instances of '" ++ left.kindNameInFull ++
      "' and '" ++ right.kindNameInFull ++ "'"
  | .notJoinable position got =>
    "sequence item " ++ toString position ++ ": expected str instance, " ++ got.kindNameInFull ++
      " found"
  | .notInteger got => "'" ++ got.kindNameInFull ++ "' object cannot be interpreted as an integer"
  | .notPattern => "first argument must be string or compiled pattern"
  | .notIndex sequence index =>
    match sequence with
    | .text _ => "string indices must be integers, not '" ++ index.kindNameInFull ++ "'"
    | sequence =>
      sequence.kindNameInFull ++ " indices must be integers or slices, not " ++ index.kindNameInFull
  | .notPart got => "'in <string>' requires string as left operand, not " ++ got.kindNameInFull
  | .outOfRange sequence => sequence.kindNameInFull ++ " index out of range"
  | .noAttribute got name =>
    "'" ++ got.kindNameInFull ++ "' object has no attribute '" ++ name ++ "'"
  | .methodName name => "Invalid custom method name: " ++ name.shown
  | .notName got => "'" ++ got.kindNameInFull ++ "' object has no attribute 'startswith'"
  | .unknownTypeName name => "Unknown type " ++ name.shown
  | .pattern source fault => fault.message source.toList
  | .noField name => name.shown
  | .jsonKey key =>
    "keys must be str, int, float, bool or None, not " ++ key.kindName
  | .tooManyDigits =>
    "Exceeds the limit (" ++ toString maxDigits ++
      " digits) for integer string conversion; " ++
      "use sys.set_int_max_str_digits() to increase the limit"
  | .endless => "maximum recursion depth exceeded"

end Misuse

end FieldSchema
