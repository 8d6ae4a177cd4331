import FieldSchema.Fault
import FieldSchema.Method.Registry
import FieldSchema.Pattern.Reading
import FieldSchema.Schema.Constraint

/-!
# Calls

A call applies a method to a schema. Arguments are values, checked where they are used; a schema
among them is one that is kept in the context.
-/

namespace FieldSchema

/-- What calls can refer to: schemas already built, by number, and registered methods. -/
structure Context where
  built : Array Schema
  registry : Registry

namespace Context

def empty : Context := ⟨#[], []⟩

/-- Registers a custom method, which changes the registry alone. -/
def register (context : Context) (kind? : Option Kind) (name : Value) (recipe : Recipe) :
    Context × Except Misuse Unit :=
  let (registry, outcome) := context.registry.register kind? name recipe
  ({ context with registry := registry }, outcome)

def schema? (context : Context) (v : Value) : Option Schema :=
  match v with
  | .schema number _ => context.built[number]?
  | _ => none

def numberArgument (method : String) (v : Value) : Except Fault Number :=
  match v with
  | .number n => .ok n
  | v => .error (.misuse (.notNumber method v))

/-- The bound that an argument must be: a date, or the text of one. -/
def dateArgument (v : Value) : Except Fault DateLimit :=
  match v with
  | .date d => .ok (.day d)
  | .dateTime t => .ok (.moment t)
  | .text s =>
    match DateTime.read s.toList with
    | .ok t => .ok (.written s t)
    | .error fault =>
      .error (.declaration (.badShape v (.text ("invalid date bound: " ++ fault.message))))
  | v => .error (.misuse (.notDateBound v))

def valuesArgument (v : Value) : Except Fault (List Value) :=
  match v.items? with
  | some values => .ok values
  | none => .error (.misuse (.notIterable v))

def patternArgument (v : Value) : Except Fault String :=
  let source := match v with
    | .pattern source => source
    | v => v.plain
  match Pattern.read source.toList with
  | .ok _ => .ok source
  | .error fault =>
    let misuse := Misuse.pattern source fault
    if misuse.family = .pattern then
      .error (.declaration
        (.badShape (.text source) (.text ("invalid regular expression: " ++ misuse.message))))
    else .error (.misuse misuse)

def branchArgument (context : Context) (v : Value) : Except Fault Schema :=
  match context.schema? v with
  | some s => .ok s
  | none => .error (.misuse (.branchNotSchema v))

def fieldSchemas (context : Context) : List (Value × Value) → Except Fault (List (Value × Schema))
  | [] => .ok []
  | (name, v) :: rest =>
    match context.schema? v with
    | some s => do
      let fields ← fieldSchemas context rest
      pure ((name, s) :: fields)
    | none => .error (.misuse (.fieldNotSchema name v))

def fieldsArgument (context : Context) (v : Value) : Except Fault (List (Value × Schema)) :=
  match v with
  | .map entries => context.fieldSchemas entries
  | v => .error (.misuse (.noAttribute v "items"))

def minRule (kind : Kind) (v : Value) : Except Fault Rule :=
  match kind with
  | .string => Rule.minLength <$> numberArgument "min" v
  | .array => Rule.minItems <$> numberArgument "min" v
  | .date => Rule.notBefore <$> dateArgument v
  | _ => Rule.minimum <$> numberArgument "min" v

def maxRule (kind : Kind) (v : Value) : Except Fault Rule :=
  match kind with
  | .string => Rule.maxLength <$> numberArgument "max" v
  | .array => Rule.maxItems <$> numberArgument "max" v
  | .date => Rule.notAfter <$> dateArgument v
  | _ => Rule.maximum <$> numberArgument "max" v

def lengthRule (kind : Kind) (v : Value) : Except Fault Rule :=
  match kind with
  | .array => Rule.exactItems <$> numberArgument "length" v
  | _ => Rule.exactLength <$> numberArgument "length" v

/-- The rule that a method with a limit or other argument declares, if it declares one. -/
def rule? (m : Method) (kind : Kind) (v : Value) : Option (Except Fault Rule) :=
  match m with
  | .oneOf => some (Rule.oneOf <$> valuesArgument v)
  | .notOneOf => some (Rule.notOneOf <$> valuesArgument v)
  | .min => some (minRule kind v)
  | .max => some (maxRule kind v)
  | .length => some (lengthRule kind v)
  | .matching => some (Rule.matching <$> patternArgument v)
  | .lessThan => some (Rule.lessThan <$> numberArgument "less_than" v)
  | .moreThan => some (Rule.moreThan <$> numberArgument "more_than" v)
  | _ => none

/-- The rule that a method without arguments of its own declares, if it declares one. -/
def fixedRule? : Method → Option Rule
  | .email => some .email
  | .url => some .url
  | .uuid => some .uuid
  | .positive => some .positive
  | .negative => some .negative
  | .integer => some .integer
  | .isTrue => some .isTrue
  | .isFalse => some .isFalse
  | _ => none

/-- Applies a method to a schema, given the arguments in the order of its parameters. -/
def apply (context : Context) (m : Method) (s : Schema) (arguments : List Value) :
    Except Fault Schema :=
  match m, arguments with
  | .required, [message] => .ok (s.required message)
  | .notRequired, _ => .ok s.notRequired
  | .nullable, _ => .ok s.nullable
  | .default, [v] => .ok (s.withDefault v)
  | .label, [v] => .ok (s.withLabel v)
  | .when, [sibling, expected, chosen, other] => do
    let chosen ← context.branchArgument chosen
    let other ← context.branchArgument other
    pure (s.whenSibling ⟨sibling, expected, chosen, other⟩)
  | .shape, [fields] => do
    let fields ← context.fieldsArgument fields
    pure (s.withFields fields)
  | m, [v, message] =>
    match rule? m s.kind v with
    | some rule => do
      let rule ← rule
      pure (s.withRule rule message)
    | none => .ok s
  | m, [message] =>
    match fixedRule? m with
    | some rule => .ok (s.withRule rule message)
    | none => .ok s
  | _, _ => .ok s

/-- Calls a method by its name. A recipe calls methods by name in turn, `fuel` bounds how deep. -/
def call (context : Context) : (fuel : Nat) → Schema → String → Arguments → Except Fault Schema
  | 0, _, _, _ => .error (.misuse .endless)
  | fuel + 1, s, name, arguments =>
    match context.registry.capability? s.kind name with
    | none => .error (.misuse (.noAttribute (.schema 0 s.shown) name))
    | some (.builtIn m) => do
      let values ← (arguments.bind m s.kind).mapError .misuse
      context.apply m s values
    | some (.custom recipe) =>
      match arguments.named with
      | (keyword, _) :: _ => .error (.misuse (.unexpectedKeyword customCallee keyword))
      | [] =>
        match recipe.steps with
        | [] => .ok s
        | step :: steps => do
          let received := if recipe.forward then arguments.positional else []
          let first ← call context fuel s step.method ⟨received ++ step.arguments, []⟩
          steps.foldlM (fun s step => call context fuel s step.method ⟨step.arguments, []⟩) first

def maxDepth : Nat := 500

def invoke (context : Context) (s : Schema) (name : String) (arguments : Arguments) :
    Except Fault Schema :=
  context.call maxDepth s name arguments

end Context

end FieldSchema
