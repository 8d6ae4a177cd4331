import FieldSchema.Proofs.Depth
import FieldSchema.Schema.Selection

/-!
# Selected schemas

A record selects the branch of a schema's last condition, and from there on that of the branch's own
last condition (`Schema.select_of_append`). So what holds of a schema at every depth holds of what
it selects (`Schema.Everywhere.select`), and a property of a schema that follows from what its
fields select holds of all (`Schema.induct_select`).
-/

namespace FieldSchema.Schema

variable {record : Entries Value} {s : Schema} {P : Schema → Prop}

theorem select_eq_self (h : s.isConditional = false) : s.select record = s := by
  obtain ⟨kind, tests, conditions, isRequired, isNullable, default?, label, fields⟩ := s
  cases conditions with
  | nil => rfl
  | cons c conditions => simp [isConditional] at h

theorem selectLast?_append (c : Condition) : ∀ conditions : List Condition,
    selectLast? record (conditions ++ [c]) =
      some (if c.holds record then c.chosen.select record else c.other.select record)
  | [] => by
    obtain ⟨sibling, expected, chosen, other⟩ := c
    rfl
  | ⟨_, _, _, _⟩ :: conditions => by
    rw [List.cons_append, selectLast?, selectLast?_append c conditions]

/-- The last condition of a schema decides. -/
theorem select_of_append {conditions : List Condition} {c : Condition}
    (h : s.conditions = conditions ++ [c]) :
    s.select record = if c.holds record then c.chosen.select record else c.other.select record := by
  obtain ⟨kind, tests, conditions', isRequired, isNullable, default?, label, fields⟩ := s
  obtain rfl : conditions' = conditions ++ [c] := h
  rw [select, selectLast?_append, Option.getD_some]

/-- Selection stays with the schema itself or goes on from a branch of one of its conditions. -/
theorem select_cases (s : Schema) (record : Entries Value) :
    s.select record = s ∨ ∃ c ∈ s.conditions,
      s.select record = c.chosen.select record ∨ s.select record = c.other.select record := by
  rcases List.eq_nil_or_concat s.conditions with h | ⟨conditions, c, h⟩
  · exact .inl (select_eq_self (by simp [isConditional, h]))
  · rw [List.concat_eq_append] at h
    refine .inr ⟨c, by simp [h], ?_⟩
    rw [select_of_append h]
    split
    · exact .inl rfl
    · exact .inr rfl

theorem Everywhere.select (h : s.Everywhere P) (record : Entries Value) :
    (s.select record).Everywhere P := by
  induction h with
  | @intro s self fields chosen other _ ihchosen ihother =>
    rcases select_cases s record with heq | ⟨c, hc, heq | heq⟩ <;> rw [heq]
    · exact .intro self fields chosen other
    · exact ihchosen c hc
    · exact ihother c hc

/-- Induction on schemas along what records select for the fields. -/
theorem induct_select (step : ∀ s : Schema,
    (∀ e ∈ s.fields, ∀ record, P (e.2.select record)) → P s) (s : Schema) : P s := by
  have hboth : P s ∧ ∀ record, P (s.select record) := by
    induction s using Schema.induct with
    | step s hfields hconditions =>
      have hself : P s := step s fun e he => (hfields e he).2
      refine ⟨hself, fun record => ?_⟩
      rcases select_cases s record with heq | ⟨c, hc, heq | heq⟩ <;> rw [heq]
      · exact hself
      · exact (hconditions c hc).1.2 record
      · exact (hconditions c hc).2.2 record
  exact hboth.1

end FieldSchema.Schema
