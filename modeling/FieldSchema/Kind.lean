import FieldSchema.Value.Basic

/-!
# Kinds of schemas

A field is declared to be of one of seven kinds.
-/

namespace FieldSchema

/-- What a schema describes. -/
inductive Kind where
  | array
  | boolean
  | date
  | mixed
  | number
  | object
  | string
  deriving DecidableEq, Inhabited

namespace Kind

def all : List Kind := [.array, .boolean, .date, .mixed, .number, .object, .string]

def name : Kind → String
  | .array => "array"
  | .boolean => "boolean"
  | .date => "date"
  | .mixed => "mixed"
  | .number => "number"
  | .object => "object"
  | .string => "string"

def ofName? (name : String) : Option Kind := all.find? (·.name = name)

/-- The kind that a value names: only its name will do, as a text. -/
def ofValue? : Value → Option Kind
  | .text s => ofName? s
  | _ => none

def heading : Kind → String
  | .array => "ArraySchema"
  | .boolean => "BooleanSchema"
  | .date => "DateSchema"
  | .mixed => "MixedSchema"
  | .number => "NumberSchema"
  | .object => "ObjectSchema"
  | .string => "StringSchema"

/-- The type that values of this kind have; a mixed schema admits all types. -/
def typeName? : Kind → Option String
  | .mixed => none
  | kind => some kind.name

end Kind

end FieldSchema
