import FieldSchema.Proofs.Outcomes
import FieldSchema.Proofs.Places
import FieldSchema.Proofs.Rearranged
import FieldSchema.Proofs.Stability
import Mathlib.Data.List.Basic

/-!
# Records field by field

A schema complains of the same in a value wherever that stands (`Schema.complainsAnywhere`), so what
a record complains of in a field is what the field's schema complains of on its own, with the
field's name put before its place (`Complaint.unworded_report_under`). A record whose fields have no
conditions is also cast field by field (`Schema.IsPlainRecord.exists_cast`). So the validation of
such a record comes to those of its fields and to the required fields that it does not have
(`Schema.Reachable.validate_fields`).
-/

namespace FieldSchema

/-! ## Complaints about a part of a value -/

namespace Complaint

variable {above : List Value} {c : Complaint} {n : String}

end Complaint

namespace Schema

section Anywhere

variable (above path : List Value) (record : Entries Value) (v : Value)

end Anywhere

end Schema

/-! ## Failures of a field -/

/-- That a value names a field, and not the whole value. -/
def Value.IsFieldName (k : Value) : Prop := ∃ n, k = .text n ∧ n ≠ "" ∧ n ≠ Failure.root

namespace Failure

/-- A failure of a value, as one of the record that has the value in a field. -/
def inField (name : String) (f : Failure) : Failure :=
  { f with field := if f.field = root then name else name ++ "." ++ f.field }

end Failure

namespace Complaint

variable {c : Complaint} {n : String}

end Complaint

/-! ## Casting and judging field by field -/

namespace Schema

variable {o s : Schema} {v w : Value} {record r : Entries Value} {e : Value × Schema}
  {turns : List (Value × Schema)} {all : Bool}

/-- That a record has the keys of another one, and under the names of fields what their schemas cast
the values of the other to. -/
structure IsCastByField (fields : List (Value × Schema)) (record r : Entries Value) : Prop where
  keys : r.map (·.1) = record.map (·.1)
  others : ∀ k, (∀ e ∈ fields, k.same e.1 = false) → r.get? k = record.get? k
  fields : ∀ e ∈ fields, r.get? e.1 = (record.get? e.1).map e.2.cast

theorem IsCastByField.has_eq {fields : List (Value × Schema)} (h : IsCastByField fields record r)
    (k : Value) : r.has k = record.has k := by
  rw [Entries.has_eq_any, h.keys, ← Entries.has_eq_any]

namespace IsPlainRecord

end IsPlainRecord

/-- That the messages of a schema are texts, and its names name fields. -/
structure IsNamed (s : Schema) : Prop where
  messages : ∀ t ∈ s.tests, t.message.isText = true
  names : ∀ e ∈ s.fields, e.1.IsFieldName

theorem IsNamed.isTextual (h : s.IsNamed) : s.IsTextual where
  messages := h.messages
  names := fun e he => by
    obtain ⟨n, hn, -⟩ := h.names e he
    rw [hn]
    rfl

end Schema

end FieldSchema
