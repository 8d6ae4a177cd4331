import FieldSchema.Kind
import FieldSchema.Misuse

/-!
# Methods

The constraints by the names that declarations use. Every kind has the common ones and some of its
own, and each takes arguments by position or by name.
-/

namespace FieldSchema

/-- A constraint that can be declared by its name. -/
inductive Method where
  | required
  | notRequired
  | nullable
  | default
  | label
  | oneOf
  | notOneOf
  | when
  | min
  | max
  | length
  | matching
  | email
  | url
  | uuid
  | lessThan
  | moreThan
  | positive
  | negative
  | integer
  | isTrue
  | isFalse
  | shape
  deriving DecidableEq

namespace Method

def name : Method → String
  | .required => "required"
  | .notRequired => "not_required"
  | .nullable => "nullable"
  | .default => "default"
  | .label => "label"
  | .oneOf => "one_of"
  | .notOneOf => "not_one_of"
  | .when => "when"
  | .min => "min"
  | .max => "max"
  | .length => "length"
  | .matching => "matches"
  | .email => "email"
  | .url => "url"
  | .uuid => "uuid"
  | .lessThan => "less_than"
  | .moreThan => "more_than"
  | .positive => "positive"
  | .negative => "negative"
  | .integer => "integer"
  | .isTrue => "is_true"
  | .isFalse => "is_false"
  | .shape => "shape"

def common : List Method :=
  [.required, .notRequired, .nullable, .default, .label, .oneOf, .notOneOf, .when]

def own : Kind → List Method
  | .array => [.min, .max, .length]
  | .boolean => [.isTrue, .isFalse]
  | .date => [.min, .max]
  | .mixed => []
  | .number => [.min, .max, .lessThan, .moreThan, .positive, .negative, .integer]
  | .object => [.shape]
  | .string => [.min, .max, .length, .matching, .email, .url, .uuid]

def parameters : Method → List String
  | .default => ["value"]
  | .label => ["text"]
  | .oneOf | .notOneOf => ["values"]
  | .when => ["field", "is_", "then", "otherwise"]
  | .min | .max | .length | .lessThan | .moreThan => ["limit"]
  | .matching => ["regex"]
  | .shape => ["fields"]
  | _ => []

def takesMessage : Method → Bool
  | .notRequired | .nullable | .default | .label | .when | .shape => false
  | _ => true

/-- The parameters of a method, those first that must be given. -/
def allParameters (m : Method) : List String :=
  m.parameters ++ if m.takesMessage then ["message"] else []

/-- A method in reports, with the family of schemas that it belongs to. -/
def callee (m : Method) (kind : Kind) : String :=
  (if common.contains m then "Schema" else kind.heading) ++ "." ++ m.name

end Method

/-- The arguments of a call, by position and by name. -/
structure Arguments where
  positional : List Value
  named : List (String × Value)

namespace Arguments

def none : Arguments := ⟨[], []⟩

def one (v : Value) : Arguments := ⟨[v], []⟩

/-- What is wrong with the named arguments: one without a parameter, or one that is given by its
position too. The receiver of the call is given first. -/
def namedFault? (callee : String) (parameters : List String) (given : Nat) :
    List (String × Value) → Option Misuse
  | [] => .none
  | (name, _) :: rest =>
    if name = "self" then some (.repeatedArgument callee name)
    else if !parameters.contains name then some (.unexpectedKeyword callee name)
    else if (parameters.take given).contains name then some (.repeatedArgument callee name)
    else namedFault? callee parameters given rest

/-- The arguments in the order of a method's parameters. A message that is not given is null. -/
def bind (arguments : Arguments) (m : Method) (kind : Kind) : Except Misuse (List Value) :=
  let callee := m.callee kind
  let parameters := m.allParameters
  let given := arguments.positional.length
  match namedFault? callee parameters given arguments.named with
  | some misuse => .error misuse
  | .none =>
    if parameters.length < given then
      .error (.tooManyArguments callee (m.parameters.length + 1) (parameters.length + 1)
        (given + 1))
    else
      let missing := (m.parameters.drop given).filter fun name =>
        (arguments.named.lookup name).isNone
      if missing.isEmpty then
        .ok (arguments.positional ++
          (parameters.drop given).map fun name => (arguments.named.lookup name).getD .null)
      else .error (.missingArguments callee missing)

end Arguments

end FieldSchema
