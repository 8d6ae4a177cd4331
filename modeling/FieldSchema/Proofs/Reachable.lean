import FieldSchema.Method.Call
import FieldSchema.Proofs.Depth
import FieldSchema.Proofs.Keys
import FieldSchema.Proofs.Results

/-!
# Schemas that the methods lead to

`Schema.Reachable` describes the schemas that start without constraints and are extended by the
methods of their kinds. What holds of all of them holds at every depth, since fields and branches
are reachable themselves (`Reachable.everywhere`). Each is sound (`Reachable.isSound`): its
patterns can be read, its tests have messages, only a record has fields, and what names a field or
a sibling is a key.
-/

namespace FieldSchema

namespace Schema

/-- The schemas of a kind, extended by methods of the kind. -/
inductive Reachable : Schema → Prop
  | ofKind (kind : Kind) : Reachable (.ofKind kind)
  | rule {s : Schema} {m : Method} {argument : Value} {rule : Rule} (hs : Reachable s)
      (hm : m ∈ Method.common ++ Method.own s.kind)
      (hr : Context.rule? m s.kind argument = some (.ok rule)) (message : Value) :
      Reachable (s.withRule rule message)
  | fixedRule {s : Schema} {m : Method} {rule : Rule} (hs : Reachable s)
      (hm : m ∈ Method.common ++ Method.own s.kind) (hr : Context.fixedRule? m = some rule)
      (message : Value) : Reachable (s.withRule rule message)
  | required {s : Schema} (hs : Reachable s) (message : Value) : Reachable (s.required message)
  | notRequired {s : Schema} (hs : Reachable s) : Reachable s.notRequired
  | nullable {s : Schema} (hs : Reachable s) : Reachable s.nullable
  | withDefault {s : Schema} (hs : Reachable s) (v : Value) : Reachable (s.withDefault v)
  | withLabel {s : Schema} (hs : Reachable s) (label : Value) : Reachable (s.withLabel label)
  | whenSibling {s : Schema} {c : Condition} (hs : Reachable s) (hk : c.sibling.isKey = true)
      (hc : Reachable c.chosen) (ho : Reachable c.other) : Reachable (s.whenSibling c)
  | withFields {s : Schema} {fields : List (Value × Schema)} (hs : Reachable s)
      (ho : s.kind = .object) (hk : ∀ e ∈ fields, e.1.isKey = true)
      (hf : ∀ e ∈ fields, Reachable e.2) : Reachable (s.withFields fields)

end Schema

/-- Whether the pattern of a rule, if it has one, can be read. -/
def Rule.IsReadable : Rule → Prop
  | .matching source => ∃ p, Pattern.read source.toList = .ok p
  | _ => True

namespace Context

theorem exists_read_of_patternArgument {v : Value} {source : String}
    (h : patternArgument v = .ok source) : ∃ p, Pattern.read source.toList = .ok p := by
  unfold patternArgument at h
  simp only [] at h
  generalize hr : Pattern.read _ = r at h
  cases r with
  | error fault =>
    simp only [] at h
    split_ifs at h
  | ok p =>
    cases h
    exact ⟨p, hr⟩

theorem isReadable_of_rule? {m : Method} {kind : Kind} {v : Value} {rule : Rule}
    (h : rule? m kind v = some (.ok rule)) : rule.IsReadable := by
  cases m <;> simp only [rule?, Option.some.injEq, reduceCtorEq] at h
  case matching =>
    obtain ⟨source, hs, rfl⟩ := Except.exists_of_map_eq_ok h
    rw [Rule.IsReadable]
    exact exists_read_of_patternArgument hs
  case min =>
    cases kind <;> simp only [minRule] at h <;>
      obtain ⟨_, -, rfl⟩ := Except.exists_of_map_eq_ok h <;> exact trivial
  case max =>
    cases kind <;> simp only [maxRule] at h <;>
      obtain ⟨_, -, rfl⟩ := Except.exists_of_map_eq_ok h <;> exact trivial
  case length =>
    cases kind <;> simp only [lengthRule] at h <;>
      obtain ⟨_, -, rfl⟩ := Except.exists_of_map_eq_ok h <;> exact trivial
  all_goals
    obtain ⟨_, -, rfl⟩ := Except.exists_of_map_eq_ok h
    exact trivial

theorem isReadable_of_fixedRule? {m : Method} {rule : Rule} (h : fixedRule? m = some rule) :
    rule.IsReadable := by
  cases m <;> simp only [fixedRule?, Option.some.injEq, reduceCtorEq] at h <;> subst h <;> trivial

end Context

theorem Test.isTruthy_message_of (rule : Rule) (message : Value) :
    (Test.of rule message).message.isTruthy = true := by
  unfold Test.of
  split
  · assumption
  · simp [Value.isTruthy, Rule.defaultMessage]

namespace Schema

/-- What every schema is that methods lead to, apart from its fields and branches. -/
structure IsSound (s : Schema) : Prop where
  readable : ∀ t ∈ s.tests, t.rule.IsReadable
  message_isTruthy : ∀ t ∈ s.tests, t.message.isTruthy = true
  fields_eq_nil : s.kind ≠ .object → s.fields = []
  areKeys : AreKeys (s.fields.map (·.1))
  sibling_isKey : ∀ c ∈ s.conditions, c.sibling.isKey = true

/-- A name under which a record has something can be found again. -/
theorem IsSound.same_self_of_get? {s : Schema} (h : s.IsSound) {e : Value × Schema}
    (he : e ∈ s.fields) {record : Entries Value} {v : Value} (hv : record.get? e.1 = some v) :
    e.1.same e.1 = true :=
  Entries.same_self_of_get? (h.areKeys.isKey _ (List.mem_map_of_mem he)) hv

theorem IsSound.withRule {s : Schema} {rule : Rule} (h : s.IsSound) (hr : rule.IsReadable)
    (message : Value) : (s.withRule rule message).IsSound where
  readable := by
    intro t ht
    rcases List.mem_append.1 ht with ht | ht
    · exact h.readable t (List.mem_filter.1 ht).1
    · rw [List.mem_singleton] at ht
      exact ht ▸ hr
  message_isTruthy := by
    intro t ht
    rcases List.mem_append.1 ht with ht | ht
    · exact h.message_isTruthy t (List.mem_filter.1 ht).1
    · rw [List.mem_singleton] at ht
      exact ht ▸ Test.isTruthy_message_of rule message
  fields_eq_nil := h.fields_eq_nil
  areKeys := h.areKeys
  sibling_isKey := h.sibling_isKey

namespace Reachable

variable {s : Schema}

theorem isSound (h : s.Reachable) : s.IsSound := by
  induction h with
  | ofKind kind =>
    exact ⟨by simp [Schema.ofKind], by simp [Schema.ofKind], fun _ => rfl, .nil,
      by simp [Schema.ofKind]⟩
  | rule _ _ hr message ih => exact ih.withRule (Context.isReadable_of_rule? hr) message
  | fixedRule _ _ hr message ih => exact ih.withRule (Context.isReadable_of_fixedRule? hr) message
  | required _ message ih =>
    have hrule := fun nonEmpty =>
      ih.withRule (show (Rule.required nonEmpty).IsReadable from trivial) message
    exact ⟨(hrule _).readable, (hrule _).message_isTruthy, ih.fields_eq_nil, ih.areKeys,
      ih.sibling_isKey⟩
  | notRequired _ ih =>
    exact ⟨fun t ht => ih.readable t (List.mem_filter.1 ht).1,
      fun t ht => ih.message_isTruthy t (List.mem_filter.1 ht).1, ih.fields_eq_nil, ih.areKeys,
      ih.sibling_isKey⟩
  | nullable _ ih | withDefault _ _ ih | withLabel _ _ ih =>
    exact ⟨ih.readable, ih.message_isTruthy, ih.fields_eq_nil, ih.areKeys, ih.sibling_isKey⟩
  | whenSibling _ hk _ _ ih _ _ =>
    refine ⟨ih.readable, ih.message_isTruthy, ih.fields_eq_nil, ih.areKeys, fun c hc => ?_⟩
    rcases List.mem_append.1 hc with hc | hc
    · exact ih.sibling_isKey c hc
    · rw [List.mem_singleton] at hc
      exact hc ▸ hk
  | withFields _ ho hk _ ih _ =>
    exact ⟨ih.readable, ih.message_isTruthy, fun hne => absurd ho hne, ih.areKeys.putAll hk,
      ih.sibling_isKey⟩

/-- The fields and branches of a reachable schema are reachable, at every depth. -/
theorem everywhere (h : s.Reachable) : s.Everywhere Reachable := by
  induction h with
  | ofKind kind =>
    exact .intro (.ofKind kind) (by simp [Schema.ofKind]) (by simp [Schema.ofKind])
      (by simp [Schema.ofKind])
  | rule hs hm hr message ih =>
    exact .intro (.rule hs hm hr message) (fun _ => ih.field) (fun _ => ih.chosen) fun _ => ih.other
  | fixedRule hs hm hr message ih =>
    exact .intro (.fixedRule hs hm hr message) (fun _ => ih.field) (fun _ => ih.chosen)
      fun _ => ih.other
  | required hs message ih =>
    exact .intro (.required hs message) (fun _ => ih.field) (fun _ => ih.chosen) fun _ => ih.other
  | notRequired hs ih =>
    exact .intro (.notRequired hs) (fun _ => ih.field) (fun _ => ih.chosen) fun _ => ih.other
  | nullable hs ih =>
    exact .intro (.nullable hs) (fun _ => ih.field) (fun _ => ih.chosen) fun _ => ih.other
  | withDefault hs v ih =>
    exact .intro (.withDefault hs v) (fun _ => ih.field) (fun _ => ih.chosen) fun _ => ih.other
  | withLabel hs label ih =>
    exact .intro (.withLabel hs label) (fun _ => ih.field) (fun _ => ih.chosen) fun _ => ih.other
  | whenSibling hs hk hc ho ih ihc iho =>
    refine .intro (.whenSibling hs hk hc ho) (fun _ => ih.field) (fun c hmem => ?_) fun c hmem => ?_
    · rcases List.mem_append.1 hmem with hmem | hmem
      · exact ih.chosen hmem
      · rw [List.mem_singleton] at hmem
        exact hmem ▸ ihc
    · rcases List.mem_append.1 hmem with hmem | hmem
      · exact ih.other hmem
      · rw [List.mem_singleton] at hmem
        exact hmem ▸ iho
  | withFields hs ho hk hf ih ihf =>
    refine .intro (.withFields hs ho hk hf) (fun e he => ?_) (fun _ => ih.chosen) fun _ => ih.other
    rcases Entries.mem_putAll he with he | ⟨e', he', h⟩
    · exact ih.field he
    · exact h ▸ ihf e' he'

theorem everywhere_isSound (h : s.Reachable) : s.Everywhere IsSound :=
  h.everywhere.mono fun _ => isSound

end Reachable

end Schema

end FieldSchema
