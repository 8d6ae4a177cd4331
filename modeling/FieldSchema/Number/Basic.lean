import FieldSchema.Number.Shortest

/-!
# Numbers

A number is a whole number of any size or a binary floating-point number. `Number.compare` compares
the two kinds exactly: both are placed on the line of integers that counts units of `2 ^ (-1074)`,
with an infinity at either end. Not-a-number compares with nothing.
-/

namespace FieldSchema

/-- A whole number or a binary floating-point number. -/
inductive Number where
  | int (n : Int)
  | float (x : Binary64)
  deriving DecidableEq, Inhabited

/-- A place on the line of units, or beyond either end. -/
inductive Place where
  | below
  | at (units : Int)
  | above
  deriving DecidableEq

def Place.compare : Place → Place → Ordering
  | .below, .below => .eq
  | .below, _ => .lt
  | .at _, .below => .gt
  | .at a, .at b => Ord.compare a b
  | .at _, .above => .lt
  | .above, .above => .eq
  | .above, _ => .gt

namespace Number

/-- Where a number stands; not-a-number stands nowhere. -/
def place? : Number → Option Place
  | .int n => some (.at (n * Binary64.unitsPerOne))
  | .float .nan => none
  | .float (.infinite negative) => some (if negative then .below else .above)
  | .float (.finite negative mantissa exponent) =>
    some (.at (Binary64.units negative mantissa exponent))

/-- The order of two numbers, `none` when one of them is not a number. -/
def compare (a b : Number) : Option Ordering :=
  match a, b with
  | .int m, .int n => some (Ord.compare m n)
  | _, _ =>
    match a.place?, b.place? with
    | some p, some q => some (p.compare q)
    | _, _ => none

/-- Equal as numbers, so that `1` equals `1.0` and not-a-number equals nothing. -/
def same (a b : Number) : Bool := compare a b == some .eq

def lt (a b : Number) : Bool := compare a b == some .lt

def le (a b : Number) : Bool := a.lt b || a.same b

def zero : Number := .int 0

def isWhole : Number → Bool
  | .int _ => true
  | .float x => x.isWhole

/-- Whole numbers are written in decimal, the others as their shortest decimal. -/
def text : Number → String
  | .int n => toString n
  | .float x => x.text

end Number

end FieldSchema
