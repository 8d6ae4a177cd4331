import FieldSchema.Proofs.Meaning
import FieldSchema.Schema.Casting

/-!
# Coercions

The coercion of a kind changes only what is not of the kind, and what it changes is of the kind
afterwards (`Kind.coerce_eq_or_describes`). So a second coercion changes nothing more
(`Kind.coerce_coerce`). Null and mappings are left alone.
-/

namespace FieldSchema.Kind

variable {kind : Kind} {v : Value}

theorem coerce_of_describes (h : kind.describes v = true) : kind.coerce v = v := by
  cases kind with
  | array | mixed | object => rfl
  | string | number | boolean | date =>
    cases v <;> first | rfl | simp [describes] at h

theorem coerce_eq_or_describes (kind : Kind) (v : Value) :
    kind.coerce v = v ∨ kind.describes v = false ∧ kind.describes (kind.coerce v) = true := by
  cases kind with
  | array | mixed | object => exact .inl rfl
  | string =>
    cases v with
    | number n => exact .inr ⟨rfl, rfl⟩
    | _ => exact .inl rfl
  | number =>
    cases v with
    | text s =>
      simp only [coerce, Value.toNumber]
      cases Value.readNumber? s with
      | none => exact .inl rfl
      | some n => exact .inr ⟨rfl, rfl⟩
    | _ => exact .inl rfl
  | boolean =>
    cases v with
    | text s =>
      simp only [coerce, Value.toBoolean]
      cases Value.readBool? s with
      | none => exact .inl rfl
      | some b => exact .inr ⟨rfl, rfl⟩
    | number n =>
      cases n with
      | float x => exact .inl rfl
      | int n =>
        simp only [coerce, Value.toBoolean]
        split_ifs
        · exact .inr ⟨rfl, rfl⟩
        · exact .inr ⟨rfl, rfl⟩
        · exact .inl rfl
    | _ => exact .inl rfl
  | date =>
    cases v with
    | text s =>
      simp only [coerce, Value.readDate]
      cases DateTime.read? s.toList with
      | none => exact .inl rfl
      | some t => exact .inr ⟨rfl, rfl⟩
    | _ => exact .inl rfl

theorem coerce_coerce (kind : Kind) (v : Value) : kind.coerce (kind.coerce v) = kind.coerce v := by
  rcases coerce_eq_or_describes kind v with h | ⟨-, h⟩
  · rw [h, h]
  · exact coerce_of_describes h

theorem isNull_coerce (kind : Kind) (h : v.isNull = false) : (kind.coerce v).isNull = false := by
  rcases coerce_eq_or_describes kind v with heq | ⟨-, hd⟩
  · rw [heq, h]
  · cases hw : kind.coerce v with
    | null =>
      rw [hw] at hd
      -- a mixed schema describes null, and coerces nothing to it
      cases kind <;> simp [describes] at hd
      rw [show mixed.coerce v = v from rfl] at hw
      simp [hw, Value.isNull] at h
    | _ => rfl

end FieldSchema.Kind
