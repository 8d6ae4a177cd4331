import FieldSchema.Schema.Constraint
import Mathlib.Tactic.Common

/-!
# Schemas at every depth

A schema holds others: the fields of a record, and the branches of conditions. `Schema.Everywhere`
says that a property holds of a schema and of all that it holds, and what is proved of a schema from
what holds of its fields and branches is proved of all (`Schema.induct`).
-/

namespace FieldSchema.Schema

variable {P Q : Schema → Prop} {s : Schema}

/-- A property of a schema, of its fields and of the branches of its conditions, at every depth. -/
inductive Everywhere (P : Schema → Prop) : Schema → Prop
  | intro {s : Schema} (self : P s) (fields : ∀ e ∈ s.fields, Everywhere P e.2)
      (chosen : ∀ c ∈ s.conditions, Everywhere P c.chosen)
      (other : ∀ c ∈ s.conditions, Everywhere P c.other) : Everywhere P s

namespace Everywhere

theorem self (h : s.Everywhere P) : P s := by
  cases h
  assumption

theorem field (h : s.Everywhere P) {e : Value × Schema} (he : e ∈ s.fields) :
    e.2.Everywhere P := by
  cases h with
  | intro _ fields _ _ => exact fields e he

theorem chosen (h : s.Everywhere P) {c : Condition} (hc : c ∈ s.conditions) :
    c.chosen.Everywhere P := by
  cases h with
  | intro _ _ chosen _ => exact chosen c hc

theorem other (h : s.Everywhere P) {c : Condition} (hc : c ∈ s.conditions) :
    c.other.Everywhere P := by
  cases h with
  | intro _ _ _ other => exact other c hc

theorem mono (hPQ : ∀ s, P s → Q s) (h : s.Everywhere P) : s.Everywhere Q := by
  induction h with
  | intro self _ _ _ fields chosen other => exact .intro (hPQ _ self) fields chosen other

theorem and (h : s.Everywhere P) (h' : s.Everywhere Q) : s.Everywhere fun s => P s ∧ Q s := by
  induction h with
  | intro self _ _ _ fields chosen other =>
    exact .intro ⟨self, h'.self⟩ (fun e he => fields e he (h'.field he))
      (fun c hc => chosen c hc (h'.chosen hc)) fun c hc => other c hc (h'.other hc)

theorem leaf (self : P s) (hf : s.fields = []) (hc : s.conditions = []) : s.Everywhere P :=
  .intro self (by simp [hf]) (by simp [hc]) (by simp [hc])

end Everywhere

mutual

theorem everywhere_of_forall (h : ∀ s, P s) : ∀ s : Schema, s.Everywhere P
  | ⟨_, _, conditions, _, _, _, _, fields⟩ =>
    .intro (h _) (fields_everywhere_of_forall h fields)
      (fun c hc => (branches_everywhere_of_forall h conditions c hc).1)
      fun c hc => (branches_everywhere_of_forall h conditions c hc).2
  termination_by structural s => s

theorem fields_everywhere_of_forall (h : ∀ s, P s) :
    ∀ fields : List (Value × Schema), ∀ e ∈ fields, e.2.Everywhere P
  | [], _, he => by simp at he
  | (_, field) :: fields, e, he => by
    rcases List.mem_cons.1 he with rfl | he
    · exact everywhere_of_forall h field
    · exact fields_everywhere_of_forall h fields e he
  termination_by structural fields => fields

theorem branches_everywhere_of_forall (h : ∀ s, P s) :
    ∀ conditions : List Condition, ∀ c ∈ conditions,
      c.chosen.Everywhere P ∧ c.other.Everywhere P
  | [], _, hc => by simp at hc
  | ⟨_, _, chosen, other⟩ :: conditions, c, hc => by
    rcases List.mem_cons.1 hc with rfl | hc
    · exact ⟨everywhere_of_forall h chosen, everywhere_of_forall h other⟩
    · exact branches_everywhere_of_forall h conditions c hc
  termination_by structural conditions => conditions

end

/-- Induction on schemas: over the fields and over both branches of every condition. -/
theorem induct (step : ∀ s : Schema, (∀ e ∈ s.fields, P e.2) →
    (∀ c ∈ s.conditions, P c.chosen ∧ P c.other) → P s) (s : Schema) : P s := by
  induction everywhere_of_forall (P := fun _ => True) (fun _ => trivial) s with
  | intro _ _ _ _ fields chosen other =>
    exact step _ fields fun c hc => ⟨chosen c hc, other c hc⟩

end FieldSchema.Schema
