import FieldSchema.Number.Basic

/-!
# Reading numbers

Whole numbers are an optional sign and decimal digits, `maxDigits` of them at most. Decimal numbers
may have a point and an exponent and are rounded to the nearest binary number.
-/

namespace FieldSchema

def maxDigits : Nat := 4300

/-- The number that a digit of a base up to sixteen stands for. -/
def digitValue (c : Char) : Nat :=
  if c.isDigit then c.toNat - '0'.toNat
  else if 'a' ≤ c ∧ c ≤ 'f' then c.toNat - 'a'.toNat + 10
  else if 'A' ≤ c ∧ c ≤ 'F' then c.toNat - 'A'.toNat + 10
  else 0

def digitsValue (base : Nat) (digits : List Char) : Nat :=
  digits.foldl (fun n c => base * n + digitValue c) 0

/-- Takes a leading sign off a text and says whether it is a minus. -/
def takeSign : List Char → Bool × List Char
  | '-' :: cs => (true, cs)
  | '+' :: cs => (false, cs)
  | cs => (false, cs)

def signed (negative : Bool) (n : Nat) : Int := if negative then -(n : Int) else n

/-- Reads a whole number: a sign or none, then digits and nothing else. -/
def readInt? (cs : List Char) : Option Int :=
  let (negative, digits) := takeSign cs
  if digits ≠ [] ∧ digits.all Char.isDigit ∧ digits.length ≤ maxDigits then
    some (signed negative (digitsValue 10 digits))
  else none

def readExponent? : List Char → Option Int
  | [] => some 0
  | c :: cs =>
    if c = 'e' ∨ c = 'E' then
      let (negative, digits) := takeSign cs
      if digits ≠ [] ∧ digits.all Char.isDigit then
        some (signed negative (digitsValue 10 digits))
      else none
    else none

/-- Reads a decimal number: digits with a point before, among or after them, or without one, and
an exponent or none. -/
def readDecimal? (cs : List Char) : Option Binary64 :=
  let (negative, cs) := takeSign cs
  let (whole, cs) := cs.span Char.isDigit
  let (fraction, cs) :=
    match cs with
    | '.' :: cs => cs.span Char.isDigit
    | cs => ([], cs)
  if whole = [] ∧ fraction = [] then none
  else
    (readExponent? cs).map fun exponent =>
      .ofDecimal negative (digitsValue 10 (whole ++ fraction)) (exponent - fraction.length)

end FieldSchema
