import FieldSchema.Schema.Basic

/-!
# Constraints

Each constraint extends a schema. A test that is declared again takes the place at the end and the
earlier one of its name is dropped.
-/

namespace FieldSchema.Schema

def withoutTest (s : Schema) (name : String) : Schema :=
  { s with tests := s.tests.filter (·.name ≠ name) }

def withTest (s : Schema) (t : Test) : Schema :=
  { s with tests := s.tests.filter (·.name ≠ t.name) ++ [t] }

def withRule (s : Schema) (rule : Rule) (message : Value) : Schema := s.withTest (.of rule message)

/-- Demands a value. A text must not be empty either. -/
def required (s : Schema) (message : Value) : Schema :=
  { s.withRule (.required (s.kind = .string)) message with isRequired := true }

def notRequired (s : Schema) : Schema := { s.withoutTest "required" with isRequired := false }

def nullable (s : Schema) : Schema := { s with isNullable := true }

def withDefault (s : Schema) (value : Value) : Schema := { s with default? := some value }

/-- Declares a label; null takes it back. -/
def withLabel (s : Schema) (label : Value) : Schema := { s with label := label }

def whenSibling (s : Schema) (condition : Condition) : Schema :=
  { s with conditions := s.conditions ++ [condition] }

/-- Declares a field, in place of an earlier one of its name. -/
def withField (s : Schema) (name : Value) (field : Schema) : Schema :=
  { s with fields := Entries.put s.fields name field }

def withFields (s : Schema) (fields : List (Value × Schema)) : Schema :=
  { s with fields := Entries.putAll s.fields fields }

end FieldSchema.Schema
