import FieldSchema.Operation.Run
import FieldSchema.Proofs.Building

/-!
# Operations where nothing stands in their place

Where no custom method is registered, operations are those of the schemas themselves: each comes to
what the schema alone does (`Context.IsPlain.describe_eq`, `Context.IsPlain.document_eq`,
`Context.IsPlain.select_eq`).
-/

namespace FieldSchema

namespace Replacements

variable {s : Schema} {op : Operation} {kind : Kind}

@[simp] theorem ofKind_nothing : nothing.ofKind kind op = none := rfl

@[simp] theorem inheritedBy_nothing : nothing.inheritedBy kind op = none := by
  simp [inheritedBy, nothing]

@[simp] theorem hasDefault_nothing : nothing.hasDefault s = s.hasDefault := rfl

@[simp] theorem isConditional_nothing : nothing.isConditional s = s.isConditional := rfl

theorem getDefault_nothing (s : Schema) : nothing.getDefault s = .ok s.absent := by
  have hinherited : nothing.inherited .getDefault = none := rfl
  simp only [getDefault, ofKind_nothing, hinherited, hasDefault_nothing, Schema.hasDefault,
    Schema.absent]
  cases s.default? with
  | some v => simp
  | none => cases s.fields.isEmpty <;> simp [apply_ite]

/-! ## Descriptions and documents -/

mutual

theorem describe_nothing : ∀ s : Schema, nothing.describe s = .ok s.described
  | ⟨kind, tests, conditions, isRequired, isNullable, default?, label, fields⟩ => by
    simp only [describe, Schema.described, ofKind_nothing, inheritedBy_nothing,
      describeFields_nothing fields]
    rfl
  termination_by structural s => s

theorem describeFields_nothing : ∀ fields : List (Value × Schema),
    nothing.describeFields fields = .ok (Schema.describedFields fields)
  | [] => rfl
  | (name, field) :: fields => by
    rw [describeFields, describe_nothing field, describeFields_nothing fields]
    rfl
  termination_by structural fields => fields

end

mutual

theorem document_nothing : ∀ s : Schema, nothing.document s = .ok s.document
  | ⟨kind, tests, conditions, isRequired, isNullable, default?, label, fields⟩ => by
    simp only [document, Schema.document, ofKind_nothing, inheritedBy_nothing,
      fieldDocuments_nothing fields, fieldConditionals_nothing fields]
    rfl
  termination_by structural s => s

theorem fieldDocuments_nothing : ∀ fields : List (Value × Schema),
    nothing.fieldDocuments fields = .ok (Schema.fieldDocuments fields)
  | [] => rfl
  | (name, field) :: fields => by
    rw [fieldDocuments, document_nothing field, fieldDocuments_nothing fields]
    rfl
  termination_by structural fields => fields

theorem fieldConditionals_nothing : ∀ fields : List (Value × Schema),
    nothing.fieldConditionals fields = .ok (Schema.fieldConditionals fields)
  | [] => rfl
  | (name, field) :: fields => by
    rw [fieldConditionals, conditionals_nothing name field, fieldConditionals_nothing fields]
    rfl
  termination_by structural fields => fields

theorem conditionals_nothing (name : Value) : ∀ s : Schema,
    nothing.conditionals name s = .ok (Schema.conditionals name s)
  | ⟨_, _, conditions, _, _, _, _, _⟩ => by
    simp only [conditionals, Schema.conditionals, ofKind_nothing, choices_nothing name conditions]
  termination_by structural s => s

theorem choices_nothing (name : Value) : ∀ conditions : List Condition,
    nothing.choices name conditions = .ok (Schema.choices name conditions)
  | [] => rfl
  | ⟨sibling, expected, chosen, other⟩ :: rest => by
    rw [choices, document_nothing chosen, conditionals_nothing name chosen, document_nothing other,
      conditionals_nothing name other, choices_nothing name rest]
    rfl
  termination_by structural conditions => conditions

end

end Replacements

/-! ## Contexts without registrations -/

namespace Context

variable {context : Context}

theorem replacements_eq_nothing (hregistry : context.registry = []) :
    context.replacements = .nothing := by
  have hrecipe : ∀ kind? name, context.registry.recipe? kind? name = none := fun _ _ => by
    rw [hregistry]
    rfl
  simp [replacements, Replacements.nothing, hrecipe]

namespace IsPlain

variable (hplain : context.IsPlain) (s : Schema)

include hplain

theorem describe_eq : context.describe s = .ok s.described := by
  rw [Context.describe, replacements_eq_nothing hplain.registry, Replacements.describe_nothing]

theorem document_eq : context.document s = .ok s.document := by
  rw [Context.document, replacements_eq_nothing hplain.registry, Replacements.document_nothing]

theorem select_eq (parent : Value) : context.select s parent =
    (s.selectFor parent).mapError .misuse := by
  rw [Context.select, replacements_eq_nothing hplain.registry]
  rfl

end IsPlain

end Context

end FieldSchema
