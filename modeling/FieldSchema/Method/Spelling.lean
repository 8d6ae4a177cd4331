import FieldSchema.Text.Case
import FieldSchema.Method.Registry

/-!
# Spellings of method names

A declaration may spell a method with capitals instead of underscores, so that `oneOf` stands for
`one_of`. A name that is known as it stands is not respelled.
-/

namespace FieldSchema

def isCapital (c : Char) : Bool := 'A' ≤ c && c ≤ 'Z'

def separateCapitals (cs : List Char) : List Char :=
  cs.flatMap fun c => if isCapital c then ['_', c] else [c]

/-- Text with an underscore before every capital letter but a leading one, in lower case. -/
def snakeCase (cs : List Char) : List Char :=
  match cs with
  | [] => []
  | c :: rest => Text.lower (c :: separateCapitals rest)

def spellings (name : String) : List String := [name, String.ofList (snakeCase name.toList)]

/-- The method that a declared name means on a class: the first spelling that is listed and stands
for something. Only a text names a method. -/
def Registry.resolveOn? (registry : Registry) (kind? : Option Kind) (name : Value) :
    Option String :=
  match name with
  | .text s =>
    (spellings s).find? fun spelling =>
      (registry.names kind?).contains spelling && (registry.capability? kind? spelling).isSome
  | _ => none

/-- The method that a declared name means on a kind. -/
def Registry.resolve? (registry : Registry) (kind : Kind) (name : Value) : Option String :=
  registry.resolveOn? (some kind) name

end FieldSchema
