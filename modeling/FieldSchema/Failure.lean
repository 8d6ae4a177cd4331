import FieldSchema.Value.Shown

/-!
# Failures of validation

A failure names the field, the constraint that it does not satisfy, and where it helps the value
and the constraint's argument.
-/

namespace FieldSchema

/-- One constraint that a value does not satisfy. -/
structure Failure where
  field : String
  error : Value
  message : String
  value : Value
  constraint : Value
  deriving Inhabited

namespace Failure

def root : String := "this"

def missing (field : String) : Failure :=
  ⟨field, .text "required", field ++ " is a required field", .null, .null⟩

/-- The parts of a failure by name. A value and a constraint that are null are left out. -/
def entries (f : Failure) : Entries Value :=
  [(.text "field", .text f.field), (.text "error", f.error), (.text "message", .text f.message)] ++
    ([(.text "value", f.value), (.text "constraint", f.constraint)].filter fun e => !e.2.isNull)

def shown (f : Failure) : String :=
  "ValidationErrorDetail(field=" ++ (Value.text f.field).shown ++ ", error=" ++ f.error.shown ++
    ", message=" ++ (Value.text f.message).shown ++ ", value=" ++ f.value.shown ++
    ", constraint=" ++ f.constraint.shown ++ ")"

/-- The fields that fail, each once, in the order of their first failures. -/
def fields (failures : List Failure) : List String := (failures.map (·.field)).eraseDups

def summary (failures : List Failure) : String :=
  "Validation failed: " ++ toString failures.length ++ " error(s)"

def summaryShown (failures : List Failure) : String :=
  "ValidationError(" ++ toString failures.length ++ " errors)"

def report (failures : List Failure) : Value :=
  .map [(.text "success", .bool false), (.text "errors", .list (failures.map (.map ·.entries)))]

end Failure

end FieldSchema
