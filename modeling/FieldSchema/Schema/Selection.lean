import FieldSchema.Misuse
import FieldSchema.Schema.Basic

/-!
# Selection of branches

A field's conditions are settled against the record that holds it. Each level is settled by its last
condition, and the selected branch may have conditions of its own, so selection ends at a schema
without any. A value that is no record can be put to the question too: a sequence has the siblings
among its items, a text has those that are its parts, and no other value has any.
-/

namespace FieldSchema

/-- Whether a value is what a condition expects. Truth values are not taken for numbers. -/
def Value.meets (v expected : Value) : Bool := v.same expected && v.isBool = expected.isBool

def Condition.holds (c : Condition) (record : Entries Value) : Bool :=
  match record.get? c.sibling with
  | some v => v.meets c.expected
  | none => false

namespace Schema

mutual

def select (record : Entries Value) : Schema → Schema
  | ⟨kind, tests, conditions, isRequired, isNullable, default?, label, fields⟩ =>
    (selectLast? record conditions).getD
      ⟨kind, tests, conditions, isRequired, isNullable, default?, label, fields⟩
  termination_by structural s => s

def selectLast? (record : Entries Value) : List Condition → Option Schema
  | [] => none
  | ⟨sibling, expected, chosen, other⟩ :: rest =>
    match selectLast? record rest with
    | some s => some s
    | none =>
      some (if Condition.holds ⟨sibling, expected, chosen, other⟩ record then chosen.select record
        else other.select record)
  termination_by structural conditions => conditions

end

end Schema

def isPartOf (part : List Char) : List Char → Bool
  | [] => part.isEmpty
  | c :: cs => part.isPrefixOf (c :: cs) || isPartOf part cs

/-- The item of a sequence at a position, counted from the end if it is negative. -/
def itemAt (sequence : Value) (items : List Value) (position : Value) : Except Misuse Value :=
  let index : Option Int := match position with
    | .bool b => some (if b then 1 else 0)
    | .number (.int n) => some n
    | _ => none
  match index with
  | none => .error (.notIndex sequence position)
  | some n =>
    let n := if n < 0 then n + items.length else n
    match if n < 0 then none else items[n.toNat]? with
    | some v => .ok v
    | none => .error (.outOfRange sequence)

/-- Whether a condition holds for a value that is put in the place of a record. -/
def Condition.holdsFor (c : Condition) (parent : Value) : Except Misuse Bool :=
  match parent with
  | .map record =>
    if c.sibling.isKey then .ok (c.holds record) else .error (.notHashable c.sibling)
  | .list items | .tuple items =>
    if items.any (c.sibling.same ·) then do
      let v ← itemAt parent items c.sibling
      pure (v.meets c.expected)
    else .ok false
  | .text s =>
    match c.sibling with
    | .text part =>
      if isPartOf part.toList s.toList then .error (.notIndex parent c.sibling) else .ok false
    | v => .error (.notPart v)
  | v => .error (.notContainer v)

namespace Schema

mutual

/-- The schema that a value in the place of a record selects. -/
def selectFor (parent : Value) : Schema → Except Misuse Schema
  | ⟨kind, tests, conditions, isRequired, isNullable, default?, label, fields⟩ => do
    match ← selectLastFor parent conditions with
    | some s => pure s
    | none => pure ⟨kind, tests, conditions, isRequired, isNullable, default?, label, fields⟩
  termination_by structural s => s

/-- The schema that the last of some conditions selects. All of them are put to the question. -/
def selectLastFor (parent : Value) : List Condition → Except Misuse (Option Schema)
  | [] => .ok none
  | ⟨sibling, expected, chosen, other⟩ :: rest =>
    match Condition.holdsFor ⟨sibling, expected, chosen, other⟩ parent with
    | .error m => .error m
    | .ok holds =>
      if rest.isEmpty then
        if holds then some <$> selectFor parent chosen else some <$> selectFor parent other
      else selectLastFor parent rest
  termination_by structural conditions => conditions

end

end Schema

end FieldSchema
