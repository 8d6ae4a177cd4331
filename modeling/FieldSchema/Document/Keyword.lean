import FieldSchema.Misuse
import FieldSchema.Value.Coercion
import FieldSchema.Pattern.Matching

/-!
# Keywords

The keywords of documents. Each demands something of a value by its argument; `Keyword.objection?`
is what a value that does not satisfy it is told. A keyword passes over values of other types than
its own.

The keywords with documents in their arguments are interpreted in `Document.Check`. Documents can
have more keywords than schemas compile to (`Keyword.foreignNames`), and what these find is not
described here.

An objection shows values of every size. That a whole number of more than `maxDigits` digits cannot
be turned into text is left out of it.
-/

namespace FieldSchema

/-- The keywords that schemas compile to, and the others of their kind. -/
inductive Keyword where
  | type
  | not
  | enum
  | const
  | minLength
  | maxLength
  | minItems
  | maxItems
  | minimum
  | maximum
  | exclusiveMinimum
  | exclusiveMaximum
  | pattern
  | minDate
  | maxDate
  | properties
  | required
  | allOf
  | choice
  deriving DecidableEq

namespace Keyword

def all : List Keyword :=
  [.type, .not, .enum, .const, .minLength, .maxLength, .minItems, .maxItems, .minimum, .maximum,
    .exclusiveMinimum, .exclusiveMaximum, .pattern, .minDate, .maxDate, .properties, .required,
    .allOf, .choice]

def name : Keyword → String
  | .type => "type"
  | .not => "not"
  | .enum => "enum"
  | .const => "const"
  | .minLength => "minLength"
  | .maxLength => "maxLength"
  | .minItems => "minItems"
  | .maxItems => "maxItems"
  | .minimum => "minimum"
  | .maximum => "maximum"
  | .exclusiveMinimum => "exclusiveMinimum"
  | .exclusiveMaximum => "exclusiveMaximum"
  | .pattern => "pattern"
  | .minDate => "minDate"
  | .maxDate => "maxDate"
  | .properties => "properties"
  | .required => "required"
  | .allOf => "allOf"
  | .choice => "if"

def ofKey? : Value → Option Keyword
  | .text s => all.find? (·.name = s)
  | _ => none

/-- The keyword that stands for another document, and is looked at before all others. -/
def referenceName : String := "$ref"

/-- The names of the other keywords that documents can have. -/
def foreignNames : List String :=
  [referenceName, "additionalItems", "additionalProperties", "anyOf", "contains", "dependencies",
    "format", "items", "maxProperties", "minProperties", "multipleOf", "oneOf", "patternProperties",
    "propertyNames", "uniqueItems"]

def foreignName? : Value → Option String
  | .text s => if foreignNames.contains s then some s else none
  | _ => none

end Keyword

namespace Value

/-- Whether a value has a type of documents, `none` if there is no such type. A truth value is not a
number, and a number without a fraction is whole. -/
def hasType? (v : Value) (typeName : String) : Option Bool :=
  match typeName with
  | "null" => some v.isNull
  | "boolean" => some v.isBool
  | "string" => some (match v with | .text _ => true | _ => false)
  | "number" => some (match v with | .number _ => true | _ => false)
  | "integer" => some (match v with | .number n => n.isWhole | _ => false)
  | "array" => some (match v with | .list _ => true | _ => false)
  | "object" => some v.isMap
  | "date" => some v.isDate
  | _ => none

def isOfType (v typeName : Value) : Except Misuse Bool :=
  match typeName with
  | .text s =>
    match v.hasType? s with
    | some b => .ok b
    | none => .error (.unknownTypeName typeName)
  | _ => .error (.unknownTypeName typeName)

def isOfTypes (v : Value) : List Value → Except Misuse Bool
  | [] => .ok false
  | name :: names =>
    match v.isOfType name with
    | .ok true => .ok true
    | .ok false => isOfTypes v names
    | .error m => .error m

def items (v : Value) : Except Misuse (List Value) :=
  match v.items? with
  | some vs => .ok vs
  | none => .error (.notIterable v)

end Value

namespace Keyword

/-- How a number can exceed a limit: the words of the comparison, and the comparison. -/
structure Excess where
  operator : String
  holds : Number → Number → Bool

def below : Excess := ⟨"<", Number.lt⟩

def above : Excess := ⟨">", fun a b => b.lt a⟩

def atOrBelow : Excess := ⟨"<=", Number.le⟩

def atOrAbove : Excess := ⟨">=", fun a b => b.le a⟩

/-- Whether a number exceeds a limit, which must be a number too. -/
def Excess.test (e : Excess) (n : Number) (limit : Value) : Except Misuse Bool :=
  match limit.number? with
  | some l => .ok (e.holds n l)
  | none => .error (.notComparable e.operator (.number n) limit)

def shortObjection (v limit : Value) (length : Nat) : Except Misuse (Option String) := do
  if ← below.test (.int length) limit then
    let words := if limit.same (.int 1) then " should be non-empty" else " is too short"
    pure (some (v.shown ++ words))
  else pure none

def longObjection (v limit : Value) (length : Nat) : Except Misuse (Option String) := do
  if ← above.test (.int length) limit then
    let words := if limit.same (.int 0) then " is expected to be empty" else " is too long"
    pure (some (v.shown ++ words))
  else pure none

def boundObjection (e : Excess) (words : String) (v limit : Value) :
    Except Misuse (Option String) :=
  match v with
  | .number n => do
    if ← e.test n limit then pure (some (v.shown ++ " is " ++ words ++ " of " ++ limit.shown))
    else pure none
  | _ => .ok none

def patternSource : Value → Except Misuse String
  | .text s | .pattern s => .ok s
  | v => .error (if v.isKey then .notPattern else .notHashable v)

def patternObjection (s : String) (argument : Value) : Except Misuse (Option String) := do
  let source ← patternSource argument
  match Pattern.read source.toList with
  | .error fault => throw (.pattern source fault)
  | .ok p =>
    if p.search s.toList.toArray then pure none
    else pure (some ((Value.text s).shown ++ " does not match " ++ argument.shown))

def boundMoment (argument : Value) : Except Misuse DateTime :=
  match argument.toDateTime with
  | .dateTime t => .ok t
  | v => .error (.noAttribute v "tzinfo")

def dateObjection (allowed : DateTime → DateTime → Bool) (words : String) (v argument : Value) :
    Except Misuse (Option String) :=
  match v with
  | .date d => do
    if allowed (.ofDate d) (← boundMoment argument) then pure none
    else pure (some (String.ofList d.written ++ words ++ argument.plain))
  | .dateTime t => do
    if allowed t (← boundMoment argument) then pure none
    else pure (some (String.ofList t.written ++ words ++ argument.plain))
  | _ => .ok none

def typeNames (argument : Value) : Except Misuse (List Value) :=
  match argument with
  | .text _ => .ok [argument]
  | _ => argument.items

/-- What a keyword without documents in its argument objects to in a value. -/
def objection? (keyword : Keyword) (argument v : Value) : Except Misuse (Option String) :=
  match keyword with
  | .type => do
    let names ← typeNames argument
    if ← v.isOfTypes names then pure none
    else pure (some (v.shown ++ " is not of type " ++ ", ".intercalate (Value.shownItems names)))
  | .enum => do
    let values ← argument.items
    if values.any (·.alike v) then pure none
    else pure (some (v.shown ++ " is not one of " ++ argument.shown))
  | .const => .ok (if v.alike argument then none else some (argument.shown ++ " was expected"))
  | .minLength => match v with
    | .text s => shortObjection v argument s.length
    | _ => .ok none
  | .maxLength => match v with
    | .text s => longObjection v argument s.length
    | _ => .ok none
  | .minItems => match v with
    | .list items => shortObjection v argument items.length
    | _ => .ok none
  | .maxItems => match v with
    | .list items => longObjection v argument items.length
    | _ => .ok none
  | .minimum => boundObjection below "less than the minimum" v argument
  | .maximum => boundObjection above "greater than the maximum" v argument
  | .exclusiveMinimum => boundObjection atOrBelow "less than or equal to the minimum" v argument
  | .exclusiveMaximum => boundObjection atOrAbove "greater than or equal to the maximum" v argument
  | .pattern => match v with
    | .text s => patternObjection s argument
    | _ => .ok none
  | .minDate => dateObjection (fun t limit => limit.notAfter t) " is before " v argument
  | .maxDate => dateObjection DateTime.notAfter " is after " v argument
  | .not | .properties | .required | .allOf | .choice => .ok none

end Keyword

end FieldSchema
