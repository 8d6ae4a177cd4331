import FieldSchema.Value.Basic
import FieldSchema.Calendar.Shown
import FieldSchema.Calendar.Written

/-!
# Values as text

`Value.shown` is the form in which messages show a value, from which its kind can be told: texts are
quoted, sequences bracketed. `Value.plain` is the form in which it is put into running text: a text
as it stands and a date in its written form.

Both forms are those of numbers of every size. That a whole number of more than `maxDigits` digits
is not turned into text is kept where numbers are read, where values are written as JSON and where a
value is cast (`Kind.convert`), and left out of messages.
-/

namespace FieldSchema

namespace Value

mutual

def shown : Value → String
  | .null => "None"
  | .bool b => if b then "True" else "False"
  | .number n => n.text
  | .text s => String.ofList (Text.quoted s.toList)
  | .list items => "[" ++ ", ".intercalate (shownItems items) ++ "]"
  | .tuple items =>
    match items with
    | [item] => "(" ++ shown item ++ ",)"
    | items => "(" ++ ", ".intercalate (shownItems items) ++ ")"
  | .map entries => "\x7b" ++ ", ".intercalate (shownEntries entries) ++ "\x7d"
  | .date d => d.shown
  | .dateTime t => t.shown
  | .pattern source => "re.compile(" ++ String.ofList ((Text.quoted source.toList).take 200) ++ ")"
  | .schema _ shown => shown
  termination_by structural v => v

def shownItems : List Value → List String
  | [] => []
  | v :: vs => shown v :: shownItems vs
  termination_by structural vs => vs

def shownEntries : List (Value × Value) → List String
  | [] => []
  | (k, v) :: es => (shown k ++ ": " ++ shown v) :: shownEntries es
  termination_by structural es => es

end

def plain : Value → String
  | .text s => s
  | .date d => String.ofList d.written
  | .dateTime t => String.ofList (t.writtenWith ' ')
  | v => v.shown

def kindName : Value → String
  | .null => "NoneType"
  | .bool _ => "bool"
  | .number (.int _) => "int"
  | .number (.float _) => "float"
  | .text _ => "str"
  | .list _ => "list"
  | .tuple _ => "tuple"
  | .map _ => "dict"
  | .date _ => "date"
  | .dateTime _ => "datetime"
  | .pattern _ => "Pattern"
  | .schema _ shown => String.ofList (shown.toList.takeWhile (· ≠ '('))

/-- The word for a value's kind with the family that the kind belongs to. -/
def kindNameInFull : Value → String
  | .date _ => "datetime.date"
  | .dateTime _ => "datetime.datetime"
  | .pattern _ => "re.Pattern"
  | v => v.kindName

end Value

end FieldSchema
