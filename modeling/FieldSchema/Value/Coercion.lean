import FieldSchema.Value.Basic
import FieldSchema.Number.Reading
import FieldSchema.Calendar.Reading
import FieldSchema.Text.Case

/-!
# Coercion

Before a value is validated it is brought to the type that its schema asks for, where there is an
obvious reading: a number or a truth value written as text, a number that should be text, a date in
its written form. A value without such a reading is left as it is, and the type check reports it.

`Value.toText` gives the text of a whole number of every size. That there is none for more than
`maxDigits` digits (`Value.hasTooManyDigits`) is kept by `Kind.convert`, which casting is carried
out with.
-/

namespace FieldSchema.Value

/-- Reads a number from plain ASCII text without underscores: a whole number if it is one, else a
finite decimal. -/
def readNumber? (s : String) : Option Number :=
  let cs := Text.trim s.toList
  if cs.contains '_' || !cs.all (·.toNat < 128) then none
  else
    match readInt? cs with
    | some n => some (.int n)
    | none =>
      match readDecimal? cs with
      | some x => if x.isFinite then some (.float x) else none
      | none => none

def toNumber : Value → Value
  | .text s => match readNumber? s with
    | some n => .number n
    | none => .text s
  | v => v

def trueWords : List String := ["true", "1", "yes"]

def falseWords : List String := ["false", "0", "no"]

def readBool? (s : String) : Option Bool :=
  let word := String.ofList (Text.lower (Text.trim s.toList))
  if trueWords.contains word then some true
  else if falseWords.contains word then some false
  else none

/-- The words for truth and the whole numbers 0 and 1 become truth values. -/
def toBoolean : Value → Value
  | .text s => match readBool? s with
    | some b => .bool b
    | none => .text s
  | .number (.int n) =>
    if n = 0 then .bool false else if n = 1 then .bool true else .number (.int n)
  | v => v

def toText : Value → Value
  | .number n => .text n.text
  | v => v

/-- Whether a value is a whole number of so many digits that it is not turned into a text. -/
def hasTooManyDigits : Value → Bool
  | .number (.int n) => maxDigits < (Nat.toDigits 10 n.natAbs).length
  | _ => false

def readDate : Value → Value
  | .text s => match DateTime.read? s.toList with
    | some t => .dateTime t
    | none => .text s
  | v => v

/-- A date or date and time, written or not, becomes a date and time; a date becomes its
midnight. -/
def toDateTime : Value → Value
  | .date d => .dateTime (.ofDate d)
  | v => v.readDate

end FieldSchema.Value
