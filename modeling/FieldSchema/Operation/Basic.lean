import FieldSchema.Method.Call

/-!
# Operations

What is done with a schema that is built is found by name on its class, as methods are. A custom
method that is registered under the name of an operation stands in its place from then on, also
where one operation goes on to another.
-/

namespace FieldSchema

/-- What schemas are asked and what is done with them. -/
inductive Operation where
  | isRequired
  | hasDefault
  | conditions
  | getDefault
  | describe
  | document
  | isType
  | select
  | cast
  | validate
  | isValid
  deriving DecidableEq

namespace Operation

def name : Operation → String
  | .isRequired => "is_required"
  | .hasDefault => "has_default"
  | .conditions => "conditions"
  | .getDefault => "get_default"
  | .describe => "describe"
  | .document => "to_json_schema"
  | .isType => "is_type"
  | .select => "resolve"
  | .cast => "cast"
  | .validate => "validate"
  | .isValid => "is_valid"

def all : List Operation :=
  [.isRequired, .hasDefault, .conditions, .getDefault, .describe, .document, .isType, .select,
    .cast, .validate, .isValid]

/-- Whether records have an operation of their own, which goes on to that of all kinds. -/
def isOfRecord : Operation → Bool
  | .getDefault | .describe | .document => true
  | _ => false

end Operation

/-- A function in the place of an operation. -/
abbrev Replacement := Schema → Arguments → Except Fault Schema

/-- What stands in the place of operations: for the schemas of a kind, and on the class of all
kinds, where the operations that records have of their own go on to. -/
structure Replacements where
  ofKind : Kind → Operation → Option Replacement
  inherited : Operation → Option Replacement

/-- What a schema answers with through a function in the place of an operation: another schema. -/
def Replacement.answer (f : Replacement) (s : Schema) (arguments : Arguments) :
    Except Fault Value :=
  (fun t => .schema 0 t.shown) <$> f s arguments

/-- Where nothing was registered in the place of an operation. -/
def Replacements.nothing : Replacements := ⟨fun _ _ => none, fun _ => none⟩

/-- What was registered in the place of operations. A record's own are found before what all kinds
have. -/
def Context.replacements (context : Context) : Replacements :=
  let function (op : Operation) : Replacement := fun s arguments =>
    context.invoke s op.name arguments
  let isOn (kind? : Option Kind) (op : Operation) : Bool :=
    (context.registry.recipe? kind? op.name).isSome
  { ofKind := fun kind op =>
      if isOn (some kind) op || !(kind = .object && op.isOfRecord) && isOn none op then
        some (function op)
      else none
    inherited := fun op => if isOn none op then some (function op) else none }

end FieldSchema
