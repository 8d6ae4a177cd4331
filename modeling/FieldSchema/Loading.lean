import FieldSchema.Declaration.Building
import FieldSchema.Markup.Reading

/-!
# Declaration texts

A text holds the declarations of a record's fields, at top level or under a lone key `fields`. Where
that key holds a declaration with a type, it is itself a field.
-/

namespace FieldSchema

def fieldsKey : Value := .text "fields"

def unwrapFields : Value → Value
  | .map [(key, .map inner)] =>
    if fieldsKey.same key && !Entries.has inner typeKey then .map inner
    else .map [(key, .map inner)]
  | v => v

def declarationsOf (v : Value) : Except Fault (Entries Value) :=
  match unwrapFields v with
  | .map entries => .ok entries
  | v => .error (.declaration (.shapeless v))

def readDeclarations (text : List Char) : Except Fault (Entries Value) := do
  let v ← (Markup.read text).mapError .markup
  declarationsOf v

def Context.load (context : Context) (text : List Char) : Build Schema :=
  match readDeclarations text with
  | .ok entries => context.recordOf (.map entries)
  | .error fault => .fail fault

end FieldSchema
