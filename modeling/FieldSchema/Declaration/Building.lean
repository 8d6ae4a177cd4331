import FieldSchema.Declaration.Basic
import FieldSchema.Method.Call
import FieldSchema.Method.Spelling

/-!
# Building

A declaration is built into a schema by applying its constraints in order to a schema of its kind.
Two constraints have declarations in their arguments, which are built first: `when` holds the
branches of a condition, `shape` the fields of a record. A constraint declared `false` is passed
over, and `true` stands for no argument.

The first fault ends the building. Notes of what is being built are kept on the way.
-/

namespace FieldSchema

/-- A note of what is being built. -/
inductive Note where
  | field (name : Value)
  | branches (sibling : Value)
  | passedOver (method typeName : Value)

def Note.text : Note → String
  | .field name => "Building schema for field '" ++ name.plain ++ "'"
  | .branches sibling => "Building conditional branches on sibling '" ++ sibling.plain ++ "'"
  | .passedOver method typeName =>
    "Skipping disabled constraint '" ++ method.plain ++ "' on " ++ typeName.plain

/-- A building with its notes, in order, and its outcome. -/
structure Build (α : Type) where
  notes : List Note
  result : Except Fault α

namespace Build

variable {α β : Type}

def ofResult (result : Except Fault α) : Build α := ⟨[], result⟩

def fail (fault : Fault) : Build α := ⟨[], .error fault⟩

def refuse (fault : DeclarationFault) : Build α := .fail (.declaration fault)

/-- One building after another, unless the first ends with a fault. -/
def andThen (x : Build α) (f : α → Build β) : Build β :=
  match x.result with
  | .ok a => ⟨x.notes ++ (f a).notes, (f a).result⟩
  | .error fault => ⟨x.notes, .error fault⟩

instance : Monad Build where
  pure a := ⟨[], .ok a⟩
  bind := andThen

def note (n : Note) : Build Unit := ⟨[n], .ok ()⟩

end Build

def conditionKeys : List String := ["is", "then", "otherwise"]

namespace Context

/-- Declares the fields of a record through the method of that name. Where the name was registered
again, the recipe gets the declarations. -/
def shapeFields (context : Context) (s : Schema) (fields : List (Value × Schema))
    (declarations : Value) : Except Fault Schema :=
  match context.registry.capability? s.kind "shape" with
  | some (.custom _) => context.invoke s "shape" (.one declarations)
  | _ => .ok (s.withFields fields)

/-- Why a name means no method on a kind: it is unknown, or the names cannot be listed. Whether it
is a text is asked first. -/
def nameFault (context : Context) (kind : Kind) (name typeName : Value) : Fault :=
  match name, context.registry.methods (some kind) with
  | .text _, .error m => .misuse m
  | _, _ => .declaration (.unknownMethod name typeName)

def addCondition (context : Context) (s : Schema) (condition : Condition) : Except Fault Schema :=
  match context.registry.capability? s.kind "when" with
  | some (.custom _) => context.invoke s "when" ⟨[condition.sibling], [("is_", condition.expected)]⟩
  | _ => .ok (s.whenSibling condition)

def applyPlain (context : Context) (typeName name : Value) (method : String) (s : Schema)
    (argument : Value) : Build Schema :=
  match argument with
  | .bool false => do
    Build.note (.passedOver name typeName)
    pure s
  | .bool true => .ofResult (context.invoke s method .none)
  | argument => .ofResult (context.invoke s method (.one argument))

mutual

def schemaOf (context : Context) : Value → Build Schema
  | .text typeName =>
    match Declaration.kindOfName typeName with
    | .ok kind => pure (.ofKind kind)
    | .error fault => .refuse fault
  | .map entries =>
    match Declaration.kindOf (Entries.get? entries typeKey) with
    | .ok kind => applyEntries context kind (.ofKind kind) entries
    | .error fault => .refuse fault
  | v => .refuse (.shapeless v)
  termination_by structural v => v

/-- Applies the constraints in a mapping to a schema of a kind. -/
def applyEntries (context : Context) (kind : Kind) (s : Schema) :
    List (Value × Value) → Build Schema
  | [] => pure s
  | (name, argument) :: entries =>
    if typeKey.same name then applyEntries context kind s entries
    else do
      let s ← applyConstraint context kind (.text kind.name) s name argument
      applyEntries context kind s entries
  termination_by structural entries => entries

/-- Applies a constraint to a schema. Its name is looked up on the kind that was declared. -/
def applyConstraint (context : Context) (kind : Kind) (typeName : Value) (s : Schema)
    (name : Value) : Value → Build Schema
  | .map arguments =>
    match context.registry.resolve? kind name with
    | none => .fail (context.nameFault kind name typeName)
    | some "when" =>
      match arguments with
      | [] => .refuse (.shapeless (.map []))
      | (sibling, .map branches) :: _ =>
        match conditionKeys.find? fun key => !Entries.has branches (.text key) with
        | some key => .refuse (.incompleteCondition (.text key))
        | none => do
          Build.note (.branches sibling)
          let chosen ← branchOf context "then" branches
          let other ← branchOf context "otherwise" branches
          let expected := (Entries.named? branches "is").getD .null
          .ofResult (context.addCondition s ⟨sibling, expected, chosen, other⟩)
      | (_, v) :: _ => .refuse (.shapeless v)
    | some "shape" => do
      let fields ← fieldsOf context arguments
      .ofResult (context.shapeFields s fields (.map arguments))
    | some method => applyPlain context typeName name method s (.map arguments)
  | v =>
    match context.registry.resolve? kind name with
    | none => .fail (context.nameFault kind name typeName)
    | some "when" => .refuse (.shapeless v)
    | some method => applyPlain context typeName name method s v
  termination_by structural v => v

/-- Builds the branch of a condition that stands under a key. -/
def branchOf (context : Context) (key : String) : List (Value × Value) → Build Schema
  | [] => .refuse (.incompleteCondition (.text key))
  | (name, declaration) :: entries =>
    if (Value.text key).same name then schemaOf context declaration
    else branchOf context key entries
  termination_by structural entries => entries

/-- Builds the fields of a record. A schema that is already built is taken as it is. -/
def fieldsOf (context : Context) : List (Value × Value) → Build (List (Value × Schema))
  | [] => pure []
  | (name, declaration) :: entries => do
    let field ←
      match context.schema? declaration with
      | some s => pure s
      | none => schemaOf context declaration
    let fields ← fieldsOf context entries
    pure ((name, field) :: fields)
  termination_by structural entries => entries

end

/-- Applies constraints to a schema, in order. Names are looked up on the kind of the first. -/
def applyConstraints (context : Context) (kind : Kind) (typeName : Value) (s : Schema) :
    List (Value × Value) → Build Schema
  | [] => pure s
  | (name, argument) :: constraints => do
    let s ← applyConstraint context kind typeName s name argument
    applyConstraints context kind typeName s constraints

def notedFields (context : Context) : List (Value × Value) → Build (List (Value × Schema))
  | [] => pure []
  | (name, declaration) :: entries => do
    Build.note (.field name)
    let field ← context.schemaOf declaration
    let fields ← notedFields context entries
    pure ((name, field) :: fields)

/-- Builds a record schema from the declarations of its fields. -/
def recordOf (context : Context) (declarations : Value) : Build Schema :=
  match declarations with
  | .map entries => do
    let fields ← context.notedFields entries
    .ofResult (context.shapeFields (.ofKind .object) fields declarations)
  | v => .refuse (.shapeless v)

/-- A schema without constraints, of the kind that a value names. -/
def instantiate (typeName : Value) : Except Fault Schema :=
  match Kind.ofValue? typeName with
  | some kind => .ok (.ofKind kind)
  | none => .error (.declaration (.unknownType typeName))

/-- A record schema of fields that are already built. Fields that count as not given are none. -/
def newRecord (context : Context) (fields : Value) : Except Fault Schema :=
  if fields.isTruthy then context.invoke (.ofKind .object) "shape" (.one fields)
  else .ok (.ofKind .object)

end Context

end FieldSchema
