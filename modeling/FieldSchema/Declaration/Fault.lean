import FieldSchema.Value.Rendered

/-!
# Faults of declarations

What a declaration can get wrong in its form: the type, the shape, a constraint that the type does
not have, a condition without one of its parts.
-/

namespace FieldSchema

/-- Why a declaration is refused. -/
inductive DeclarationFault where
  | unknownType (typeName : Value)
  | badShape (declaration reason : Value)
  | unknownMethod (method typeName : Value)
  | incompleteCondition (property : Value)
  deriving Inhabited

namespace DeclarationFault

def shapeless (declaration : Value) : DeclarationFault := .badShape declaration .null

def message : DeclarationFault → String
  | .unknownType typeName => "Type " ++ typeName.plain ++ " is not valid type."
  | .badShape declaration reason =>
    "Invalid configuration (" ++ declaration.rendered ++ ")" ++
      (if reason.isTruthy then ": " ++ reason.plain else "")
  | .unknownMethod method typeName =>
    "Invalid method " ++ method.plain ++ " on " ++ typeName.plain ++ " type"
  | .incompleteCondition property =>
    "Invalid configuration, property \"" ++ property.plain ++ "\" is required in \"when\" method"

def details : DeclarationFault → List (String × Value)
  | .unknownType typeName => [("type_name", typeName)]
  | .badShape declaration reason => [("config", declaration), ("reason", reason)]
  | .unknownMethod method typeName => [("type_name", typeName), ("method", method)]
  | .incompleteCondition property => [("property", property)]

end DeclarationFault

end FieldSchema
