import FieldSchema.Value.Shown

/-!
# Values in reports on declarations

A faulty declaration is quoted briefly: null as nothing, truth values in lower case, whole numbers
without a fraction, a sequence as its items between commas, and a mapping by a fixed word.
-/

namespace FieldSchema.Value

mutual

def rendered : Value → String
  | .null => ""
  | .bool b => if b then "true" else "false"
  | .number (.float x) =>
    match x.toInt? with
    | some n => toString n
    | none => x.text
  | .map _ => "[object Object]"
  | .list items => ",".intercalate (renderedItems items)
  | .tuple items => ",".intercalate (renderedItems items)
  | v => v.plain
  termination_by structural v => v

def renderedItems : List Value → List String
  | [] => []
  | v :: vs => rendered v :: renderedItems vs
  termination_by structural vs => vs

end

end FieldSchema.Value
