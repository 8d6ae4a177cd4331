import FieldSchema.Proofs.Demands

/-!
# What schemas mean

`Schema.admits` says directly, without a compiled document, what values a schema describes: those
of its kind that are as its tests demand, and of records those whose fields are admitted, each by
its own schema and by the branches that its conditions select for the record (`Schema.admits_eq`).
-/

namespace FieldSchema

/-- Whether a value is of a kind. A truth value is no number, a tuple no array, and a mixed schema
describes all values. -/
def Kind.describes : Kind → Value → Bool
  | .array, .list _ | .boolean, .bool _ | .date, .date _ | .date, .dateTime _ | .mixed, _
  | .number, .number _ | .object, .map _ | .string, .text _ => true
  | _, _ => false

theorem Kind.hasType?_name {kind : Kind} (h : kind ≠ .mixed) (v : Value) :
    v.hasType? kind.name = some (kind.describes v) := by
  cases kind with
  | mixed => exact absurd rfl h
  | _ => cases v <;> rfl

namespace Condition

/-- Whether a record has the sibling with the expected value, as constants are compared. -/
def isMetIn (c : Condition) (record : Entries Value) : Bool :=
  (record.get? c.sibling).any (·.alike c.expected)

/-- The branch that a record demands. -/
def branch (c : Condition) (record : Entries Value) : Schema :=
  if c.isMetIn record then c.chosen else c.other

/-- What both branches are, the one that a record demands is. -/
theorem branch_of_both {P : Schema → Prop} {c : Condition} (h : P c.chosen ∧ P c.other)
    (record : Entries Value) : P (c.branch record) := by
  unfold branch
  split
  · exact h.1
  · exact h.2

end Condition

/-- Whether a record has a field as it should: present if it is required, valid if it is present,
and with its conditions settled. -/
def Entries.hasField (record : Entries Value) (name : Value) (isRequired : Bool)
    (valid : Value → Bool) (settled : Bool) : Bool :=
  (!isRequired || record.has name) && (record.get? name).all valid && settled

namespace Schema

mutual

/-- Whether a schema describes a value. -/
def admits : Schema → Value → Bool
  | ⟨kind, tests, _, _, isNullable, _, _, fields⟩, v =>
    (kind.describes v || isNullable && v.isNull) && tests.all (·.rule.admits v) &&
      match kind, v with
      | .object, .map record => admitsFields record fields
      | _, _ => true
  termination_by structural s => s

/-- Whether a record has all fields as it should. -/
def admitsFields (record : Entries Value) : List (Value × Schema) → Bool
  | [] => true
  | (name, field) :: fields =>
    record.hasField name field.isRequired (admits field) (settles record name field) &&
      admitsFields record fields
  termination_by structural fields => fields

/-- Whether a field is as its conditions demand. -/
def settles (record : Entries Value) (name : Value) : Schema → Bool
  | ⟨_, _, conditions, _, _, _, _, _⟩ => settlesAll record name conditions
  termination_by structural s => s

/-- Whether a field is as some conditions demand: like a field of the selected branch, whose own
conditions are settled by the same record. -/
def settlesAll (record : Entries Value) (name : Value) : List Condition → Bool
  | [] => true
  | ⟨sibling, expected, chosen, other⟩ :: rest =>
    (if Condition.isMetIn ⟨sibling, expected, chosen, other⟩ record then
      record.hasField name chosen.isRequired (admits chosen) (settles record name chosen)
    else record.hasField name other.isRequired (admits other) (settles record name other)) &&
      settlesAll record name rest
  termination_by structural conditions => conditions

end

/-- Whether a record has a field as its schema says. -/
def admitsIn (record : Entries Value) (name : Value) (s : Schema) : Bool :=
  record.hasField name s.isRequired s.admits (s.settles record name)

section Equations

variable {record : Entries Value} {name v : Value} {s : Schema}

theorem admitsFields_eq (fields : List (Value × Schema)) :
    admitsFields record fields = fields.all fun e => e.2.admitsIn record e.1 := by
  induction fields with
  | nil => rfl
  | cons e fields ih => simp [admitsFields, ih, admitsIn]

theorem settlesAll_eq (conditions : List Condition) :
    settlesAll record name conditions =
      conditions.all fun c => (c.branch record).admitsIn record name := by
  induction conditions with
  | nil => rfl
  | cons c conditions ih =>
    obtain ⟨sibling, expected, chosen, other⟩ := c
    simp only [settlesAll, ih, List.all_cons, Condition.branch]
    split <;> rfl

theorem settles_eq : settles record name s = settlesAll record name s.conditions := by
  cases s
  rw [settles]

/-- A schema describes the values of its kind, and null if it is nullable, that are as its tests
demand, and of records those that have all its fields as they should. -/
theorem admits_eq : s.admits v =
    ((s.kind.describes v || s.isNullable && v.isNull) && s.tests.all (·.rule.admits v) &&
      match s.kind, v with
      | .object, .map record => s.fields.all fun e => e.2.admitsIn record e.1
      | _, _ => true) := by
  obtain ⟨kind, tests, conditions, isRequired, isNullable, default?, label, fields⟩ := s
  unfold admits
  simp only [admitsFields_eq]

end Equations

end Schema

end FieldSchema
