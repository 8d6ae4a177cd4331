import FieldSchema.Schema.Casting
import FieldSchema.Schema.Document
import FieldSchema.Document.Check
import FieldSchema.Fault

/-!
# Validation

A value is cast, and then the compiled document of the schema is checked against it. A value that is
absent after casting is judged by the schema's demand for a value alone.

The numbers in a value are taken to have texts: what stops casting where it is carried out
(`Replacements.cast`) is no outcome here, and messages show numbers of every size.
-/

namespace FieldSchema.Schema

def failures (s : Schema) (v : Value) (all : Bool) : Except Misuse (List Failure) :=
  Document.collect s.document v all

def validate (s : Schema) (v : Value) (all : Bool) : Except Fault Value :=
  let w := s.cast v
  if w.isNull then
    if s.isRequired then .error (.invalid [.missing Failure.root]) else .ok .null
  else
    match s.failures w all with
    | .ok [] => .ok w
    | .ok failures => .error (.invalid failures)
    | .error m => .error (.misuse m)

/-- Whether a value is valid. A misuse is neither. -/
def isValid (s : Schema) (v : Value) (all : Bool) : Except Fault Bool :=
  match s.validate v all with
  | .ok _ => .ok true
  | .error (.invalid _) => .ok false
  | .error fault => .error fault

/-- Whether a value has the type of the schema, without casting. -/
def isType (s : Schema) (v : Value) : Bool :=
  match s.kind.typeName? with
  | none => true
  | some name => !v.isNull && (v.hasType? name).getD false

end FieldSchema.Schema
