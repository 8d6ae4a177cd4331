import FieldSchema.Number.Basic
import FieldSchema.Calendar.DateTime

/-!
# Values

Declarations, defaults, constraint arguments and the data being validated are all values: scalars,
lists, tuples, dates and mappings in insertion order. A schema that is already built can stand in a
declaration: it is known by the number it is kept under, and by its description.

Two equalities are used. `Value.same` identifies keys and siblings: numbers are equal by magnitude
and a truth value is the number 0 or 1. `Value.alike` is the stricter one that constants are tested
with: truth values are kept apart from numbers at every depth, and a list is alike a tuple of the
same items.
-/

namespace FieldSchema

/-- A value. Mappings hold their entries in insertion order; no two keys of one are the `same`. -/
inductive Value where
  | null
  | bool (b : Bool)
  | number (n : Number)
  | text (s : String)
  | list (items : List Value)
  | tuple (items : List Value)
  | map (entries : List (Value × Value))
  | date (d : Date)
  | dateTime (t : DateTime)
  | pattern (source : String)
  | schema (number : Nat) (shown : String)
  deriving Inhabited

namespace Value

def int (n : Int) : Value := .number (.int n)

def float (x : Binary64) : Value := .number (.float x)

/-- The number that a value counts as: truth values are 0 and 1. -/
def number? : Value → Option Number
  | .bool b => some (.int (if b then 1 else 0))
  | .number n => some n
  | _ => none

mutual

def same : Value → Value → Bool
  | .null, .null => true
  | .bool a, w => match w.number? with
    | some n => Number.same (.int (if a then 1 else 0)) n
    | none => false
  | .number a, w => match w.number? with
    | some n => a.same n
    | none => false
  | .text a, .text b => a == b
  | .list as, .list bs => sameItems as bs
  | .tuple as, .tuple bs => sameItems as bs
  | .map as, .map bs => as.length == bs.length && sameEntries as bs
  | .date a, .date b => a == b
  | .dateTime a, .dateTime b => a.same b
  | .pattern a, .pattern b => a == b
  | .schema a _, .schema b _ => a == b
  | _, _ => false
  termination_by structural v => v

def sameItems : List Value → List Value → Bool
  | [], [] => true
  | a :: as, b :: bs => same a b && sameItems as bs
  | _, _ => false
  termination_by structural vs => vs

/-- Whether every entry has an equal one among the others, under the same key. -/
def sameEntries : List (Value × Value) → List (Value × Value) → Bool
  | [], _ => true
  | (k, v) :: as, bs =>
    (match bs.find? fun e => same k e.1 with
      | some e => same v e.2
      | none => false) && sameEntries as bs
  termination_by structural es => es

end

mutual

def alike : Value → Value → Bool
  | .bool a, .bool b => a == b
  | .bool _, _ => false
  | _, .bool _ => false
  | .list as, .list bs => alikeItems as bs
  | .list as, .tuple bs => alikeItems as bs
  | .tuple as, .list bs => alikeItems as bs
  | .tuple as, .tuple bs => alikeItems as bs
  | .map as, .map bs => as.length == bs.length && alikeEntries as bs
  | v, w => same v w
  termination_by structural v => v

def alikeItems : List Value → List Value → Bool
  | [], [] => true
  | a :: as, b :: bs => alike a b && alikeItems as bs
  | _, _ => false
  termination_by structural vs => vs

/-- Whether every entry has one alike among the others, under the same key. -/
def alikeEntries : List (Value × Value) → List (Value × Value) → Bool
  | [], _ => true
  | (k, v) :: as, bs =>
    (match bs.find? fun e => same k e.1 with
      | some e => alike v e.2
      | none => false) && alikeEntries as bs
  termination_by structural es => es

end

def isBool : Value → Bool
  | .bool _ => true
  | _ => false

def isNull : Value → Bool
  | .null => true
  | _ => false

def isMap : Value → Bool
  | .map _ => true
  | _ => false

/-- Whether a value is a date, with or without a time of day. -/
def isDate : Value → Bool
  | .date _ | .dateTime _ => true
  | _ => false

/-- The items that a value is made of: of a list or tuple its items, of a text its characters, of a
mapping its keys. -/
def items? : Value → Option (List Value)
  | .list items | .tuple items => some items
  | .text s => some (s.toList.map fun c => .text (String.singleton c))
  | .map entries => some (entries.map (·.1))
  | _ => none

/-- Whether a value counts as given: null, false, zero and what is empty do not. -/
def isTruthy : Value → Bool
  | .null => false
  | .bool b => b
  | .number n => !n.same .zero
  | .text s => s ≠ ""
  | .list items => !items.isEmpty
  | .tuple items => !items.isEmpty
  | .map entries => !entries.isEmpty
  | _ => true

mutual

/-- Whether a value can be a key: lists and mappings cannot, nor can tuples that hold one. -/
def isKey : Value → Bool
  | .list _ => false
  | .map _ => false
  | .tuple items => areKeys items
  | _ => true
  termination_by structural v => v

def areKeys : List Value → Bool
  | [] => true
  | v :: vs => isKey v && areKeys vs
  termination_by structural vs => vs

end

end Value

/-- The entries of a mapping, or any association with values as keys. -/
abbrev Entries (α : Type) := List (Value × α)

namespace Entries

variable {α : Type}

def get? (entries : Entries α) (key : Value) : Option α :=
  (entries.find? fun e => key.same e.1).map (·.2)

def has (entries : Entries α) (key : Value) : Bool := (entries.get? key).isSome

/-- Puts an item under a key: in place of the old one if the key is present, which then stays as it
was written first, and at the end otherwise. -/
def put (entries : Entries α) (key : Value) (item : α) : Entries α :=
  match entries with
  | [] => [(key, item)]
  | (k, a) :: rest => if key.same k then (k, item) :: rest else (k, a) :: put rest key item

def putAll (entries more : Entries α) : Entries α :=
  more.foldl (fun es (k, a) => put es k a) entries

def named? (entries : Entries α) (name : String) : Option α := get? entries (.text name)

end Entries

end FieldSchema
