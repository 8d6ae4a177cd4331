import FieldSchema.Declaration.Fault
import FieldSchema.Failure
import FieldSchema.Misuse
import FieldSchema.Markup.Fault

/-!
# Faults

All the ways in which an operation of the library can end without a result.
-/

namespace FieldSchema

/-- Why there is no result: a refused declaration, a value that does not satisfy its schema, a
misuse, or a text that cannot be read. -/
inductive Fault where
  | declaration (fault : DeclarationFault)
  | invalid (failures : List Failure)
  | misuse (m : Misuse)
  | markup (fault : Markup.Fault)
  deriving Inhabited

namespace Fault

def message : Fault → String
  | .declaration fault => fault.message
  | .invalid failures => Failure.summary failures
  | .misuse m => m.message
  | .markup fault => fault.message

/-- Whether a fault is one that a faulty declaration is reported by: a refusal, or a value of the
wrong kind. -/
def isDeclarationError : Fault → Bool
  | .declaration _ => true
  | .misuse m => m.family = .kind
  | _ => false

end Fault

end FieldSchema
