import FieldSchema.Kind
import FieldSchema.Declaration.Fault

/-!
# Declarations

A field is declared by the name of its type, or by a mapping that holds the type and the
constraints. Normalising a declaration separates the two and checks the type; constraints are not
looked into.
-/

namespace FieldSchema

/-- A declaration by its form. -/
inductive Declaration where
  | bare (typeName : String)
  | structured (typeName? : Option Value) (entries : List (Value × Value))
  | invalid (v : Value)

/-- A declaration with a known type. A bare type name has no list of constraints, a mapping has one
even if it is empty. -/
structure NormalForm where
  kind : Kind
  constraints? : Option (List (Value × Value))

def typeKey : Value := .text "type"

namespace Declaration

def ofValue : Value → Declaration
  | .text s => .bare s
  | .map entries => .structured (Entries.get? entries typeKey) entries
  | v => .invalid v

def described : Declaration → Value
  | .bare typeName => .map [(.text "kind", .text "BareType"), (.text "name", .text typeName)]
  | .structured typeName? entries =>
    .map ([(.text "kind", .text "Structured"), (.text "missing", .bool typeName?.isNone),
        (.text "fields", .map entries)] ++
      match typeName? with
      | some typeName => [(typeKey, typeName)]
      | none => [])
  | .invalid v => .map [(.text "kind", .text "Invalid"), (.text "value", v)]

def typeText : Option Value → String
  | none => "undefined"
  | some .null => "null"
  | some v => v.plain

def kindOf (typeName? : Option Value) : Except DeclarationFault Kind :=
  match typeName?.bind Kind.ofValue? with
  | some kind => .ok kind
  | none => .error (.unknownType (.text (typeText typeName?)))

def kindOfName (typeName : String) : Except DeclarationFault Kind :=
  match Kind.ofName? typeName with
  | some kind => .ok kind
  | none => .error (.unknownType (.text typeName))

def constraints (entries : List (Value × Value)) : List (Value × Value) :=
  entries.filter fun e => !typeKey.same e.1

def normalize : Declaration → Except DeclarationFault NormalForm
  | .bare typeName => do
    let kind ← kindOfName typeName
    pure ⟨kind, none⟩
  | .structured typeName? entries => do
    let kind ← kindOf typeName?
    pure ⟨kind, some (constraints entries)⟩
  | .invalid v => .error (.shapeless v)

end Declaration

namespace NormalForm

def described (form : NormalForm) : Value :=
  .map ((typeKey, .text form.kind.name) ::
    match form.constraints? with
    | some constraints =>
      [(.text "methods", .list (constraints.map fun (name, arguments) =>
        .map [(.text "name", name), (.text "args", arguments)]))]
    | none => [])

end NormalForm

end FieldSchema
