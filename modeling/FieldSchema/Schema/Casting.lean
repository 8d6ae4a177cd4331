import FieldSchema.Schema.Selection
import FieldSchema.Value.Coercion

/-!
# Casting

A value is brought to its schema's type by the coercion of the kind. A record is cast field by
field: absent fields get their defaults, and fields that depend on siblings come last, when the
siblings are cast.

`Schema.cast` is what casting comes to. Where it is carried out (`Replacements.cast`) it is stopped
by a whole number that is not turned into a text, and by a condition on what cannot be a key.
-/

namespace FieldSchema

/-- The coercion of a kind. A record has none of its own. -/
def Kind.coerce : Kind → Value → Value
  | .string => Value.toText
  | .number => Value.toNumber
  | .boolean => Value.toBoolean
  | .date => Value.readDate
  | .array | .mixed | .object => id

/-- The coercion of a kind where it is carried out: a whole number of too many digits is not turned
into a text. -/
def Kind.convert (kind : Kind) (v : Value) : Except Misuse Value :=
  if kind = .string && v.hasTooManyDigits then .error .tooManyDigits else .ok (kind.coerce v)

namespace Schema

mutual

def castIn (record : Entries Value) : Schema → Value → Value
  | ⟨kind, tests, conditions, isRequired, isNullable, default?, label, fields⟩, v =>
    match castLast? record conditions v with
    | some w => w
    | none =>
      match v with
      | .null =>
        absent ⟨kind, tests, conditions, isRequired, isNullable, default?, label, fields⟩
      | .map inner =>
        if kind = .object then .map (castFields true fields (castFields false fields inner))
        else kind.coerce v
      | v => kind.coerce v
  termination_by structural s => s

/-- Casts a value by the schema that the last of some conditions selects. -/
def castLast? (record : Entries Value) : List Condition → Value → Option Value
  | [], _ => none
  | ⟨sibling, expected, chosen, other⟩ :: rest, v =>
    match castLast? record rest v with
    | some w => some w
    | none =>
      some (if Condition.holds ⟨sibling, expected, chosen, other⟩ record then
        castIn record chosen v else castIn record other v)
  termination_by structural conditions => conditions

/-- Casts the fields of a record, those with conditions or those without. -/
def castFields (conditional : Bool) : List (Value × Schema) → Entries Value → Entries Value
  | [], record => record
  | (name, field) :: rest, record =>
    castFields conditional rest
      (if field.isConditional = conditional then
        match record.get? name with
        | some v => record.put name (castIn record field v)
        | none =>
          match (field.select record).default? with
          | some v => record.put name v
          | none => record
      else record)
  termination_by structural fields => fields

end

/-- Casts a value; null is taken for absent. -/
def cast (s : Schema) (v : Value) : Value :=
  match v with
  | .null => s.absent
  | .map record =>
    if s.kind = .object then .map (castFields true s.fields (castFields false s.fields record))
    else s.kind.coerce v
  | v => s.kind.coerce v

end Schema

end FieldSchema
