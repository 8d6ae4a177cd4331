import FieldSchema.Kind
import FieldSchema.Schema.Rule

/-!
# Schemas

A schema describes the values of one kind: its tests in the order in which they were last declared,
a default, and for records the schemas of the fields. A condition replaces the schema of a field by
one of two branches, depending on a sibling.

Schemas are extended by the functions of `Schema.Constraint`; none of them changes a schema that is
already in use.
-/

namespace FieldSchema

mutual

/-- The description of the values of one kind. -/
structure Schema where
  kind : Kind
  tests : List Test
  conditions : List Condition
  isRequired : Bool
  isNullable : Bool
  default? : Option Value
  label : Value
  fields : List (Value × Schema)

/-- A choice between two branches: `chosen` where the sibling is present and has the expected value,
`other` where it does not. -/
structure Condition where
  sibling : Value
  expected : Value
  chosen : Schema
  other : Schema

end

namespace Schema

def ofKind (kind : Kind) : Schema := ⟨kind, [], [], false, false, none, .null, []⟩

instance : Inhabited Schema := ⟨ofKind .mixed⟩

def isConditional (s : Schema) : Bool := !s.conditions.isEmpty

def hasDefault (s : Schema) : Bool := s.default?.isSome

/-- What stands in for an absent value: the declared default, else an empty record where there are
fields. -/
def absent (s : Schema) : Value :=
  match s.default? with
  | some v => v
  | none => if s.kind = .object && !s.fields.isEmpty then .map [] else .null

def testNames (s : Schema) : List String := s.tests.map (·.name)

def shown (s : Schema) : String :=
  let parts :=
    ["type='" ++ s.kind.name ++ "'"] ++
      (if s.isRequired then ["required=True"] else []) ++
      (if s.tests.isEmpty then []
      else ["tests=" ++ (Value.list (s.testNames.map .text)).shown])
  s.kind.heading ++ "(" ++ ", ".intercalate parts ++ ")"

end Schema

end FieldSchema
