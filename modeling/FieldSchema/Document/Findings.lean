import FieldSchema.Document.Keyword
import FieldSchema.Failure

/-!
# Findings

What the interpretation of a document finds in a value: violations one after another, until it is
done or stopped by a misuse. A violation keeps the document that it was found by, and becomes a
failure in the terms of that document.
-/

namespace FieldSchema

/-- One keyword, by its name, that a value does not satisfy; the document `false` has no keyword. -/
structure Violation where
  path : List Value
  value : Value
  document : Value
  keyword : Option String
  argument : Value
  objection : String

namespace Violation

/-- The name of the place of a value: the keys on the way to it, between dots. -/
def pathText (path : List Value) : String := ".".intercalate (path.map (·.plain))

def fillPath (field : List Char) : List Char → List Char
  | '\x7b' :: 'p' :: 'a' :: 't' :: 'h' :: '\x7d' :: rest => field ++ fillPath field rest
  | c :: rest => c :: fillPath field rest
  | [] => []

/-- The missing property that a violation is about. Of several missing ones it is the first that is
shown as the violation says. -/
def missingProperty (v : Violation) : Except Misuse Value := do
  let names ← v.argument.items
  let record := match v.value with
    | .map entries => entries
    | _ => []
  match names.find? (!·.isKey) with
  | some name => throw (.notHashable name)
  | none =>
    let missing := names.filter (!Entries.has record ·)
    match missing.find? fun name => v.objection = name.shown ++ " is a required property" with
    | some name => pure name
    | none => pure (missing.headD .null)

/-- The name of a property of a record; what is empty or zero is left out of it. -/
def propertyPath (path : List Value) (property : Value) : Except Misuse String :=
  let record := pathText path
  if property.isTruthy then
    match property with
    | .text s => .ok (if record = "" then s else record ++ "." ++ s)
    | v => .error (.notJoinable (if record = "" then 0 else 1) v)
  else .ok (if record = "" then Failure.root else record)

def annotation (v : Violation) (keyword : String) : Option Value :=
  match v.document with
  | .map entries => Entries.named? entries keyword
  | _ => none

/-- The message of a failure: that of the document if it has one. -/
def message (v : Violation) (field : String) : Except Misuse String :=
  match v.annotation "errorMessage" with
  | some template =>
    if template.isTruthy then
      match template with
      | .text s => .ok (String.ofList (fillPath field.toList s.toList))
      | .date _ | .dateTime _ => .error (.notInteger (.text ""))
      | t => .error (.noAttribute t "replace")
    else .ok (field ++ ": " ++ v.objection)
  | none => .ok (field ++ ": " ++ v.objection)

def admittedTypes : Value → Value
  | .list names => .text (" | ".intercalate (names.map (·.plain)))
  | v => v

def failure (v : Violation) : Except Misuse Failure := do
  if v.keyword = some Keyword.required.name then
    let property ← v.missingProperty
    let field ← propertyPath v.path property
    pure (.missing field)
  else
    let place := pathText v.path
    let field := if place = "" then Failure.root else place
    if v.keyword = some Keyword.type.name && (v.annotation "$comment").isNone then
      let types := admittedTypes v.argument
      pure ⟨field, .text "type", field ++ " must be a \x60" ++ types.plain ++ "\x60 type", v.value,
        types⟩
    else
      let message ← v.message field
      let keyword := match v.keyword with
        | some name => Value.text name
        | none => .null
      pure ⟨field, (v.annotation "$comment").getD keyword, message, v.value, v.argument⟩

end Violation

/-- Violations in the order in which they are found, and the misuse that stopped the search, if any
did. -/
structure Findings where
  violations : List Violation
  stop : Option Misuse

namespace Findings

def none : Findings := ⟨[], .none⟩

def one (v : Violation) : Findings := ⟨[v], .none⟩

def stopped (m : Misuse) : Findings := ⟨[], some m⟩

def append (a b : Findings) : Findings :=
  match a.stop with
  | some _ => a
  | .none => ⟨a.violations ++ b.violations, b.stop⟩

instance : Append Findings := ⟨append⟩

/-- Whether the value is accepted: the first finding decides. -/
def accepts (f : Findings) : Except Misuse Bool :=
  match f.violations, f.stop with
  | _ :: _, _ => .ok false
  | [], some m => .error m
  | [], .none => .ok true

def failures (f : Findings) : Except Misuse (List Failure) := do
  let failures ← f.violations.mapM Violation.failure
  match f.stop with
  | some m => throw m
  | .none => pure failures

def firstFailure (f : Findings) : Except Misuse (List Failure) :=
  match f.violations, f.stop with
  | v :: _, _ => do pure [← v.failure]
  | [], some m => .error m
  | [], .none => .ok []

end Findings

end FieldSchema
