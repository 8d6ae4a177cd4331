import FieldSchema.Method.Registry
import FieldSchema.Proofs.Depth
import Mathlib.Data.List.Perm.Basic

/-!
# Changes of schemas

What a method does to a schema is a change of some of its parts, and each part is changed by the
methods of one slot (`Change.IsOf`). So changes of different slots can be made in another order
(`Change.shuffles_applyAll_perm`): the schema is the same but for the order of its tests, which
stand in the order in which they are declared (`Schema.Shuffles`).
-/

namespace FieldSchema

/-- The method whose part of a schema a method changes. -/
def Method.slot (m : Method) : Method := if m = .notRequired then .required else m

/-- A method is found by its name among those of all kinds. -/
theorem Method.builtIn?_name (m : Method) :
    Registry.builtIn? (common ++ own .string ++ own .number ++ own .boolean ++ own .object) m.name =
      some m := by
  cases m <;> rfl

theorem Method.name_injective : Function.Injective Method.name := fun m m' h =>
  Option.some.inj ((builtIn?_name m).symm.trans (h ▸ builtIn?_name m'))

/-- What becomes of the parts of a schema: the tests of a name are replaced by others, a condition
or fields are added, other parts are set. -/
structure Change where
  tests? : Option (String × List Test) := none
  isRequired? : Option Bool := none
  isNullable? : Option Bool := none
  default? : Option Value := none
  label? : Option Value := none
  condition? : Option Condition := none
  fields? : Option (List (Value × Schema)) := none

/-- The same schema but for the order of its tests. -/
def Schema.Shuffles (s s' : Schema) : Prop :=
  ∃ tests, s.tests.Perm tests ∧ s' = { s with tests := tests }

namespace Schema.Shuffles

variable {s s' t : Schema}

theorem refl (s : Schema) : s.Shuffles s := ⟨s.tests, .refl _, by cases s; rfl⟩

theorem trans (h : s.Shuffles s') (h' : s'.Shuffles t) : s.Shuffles t := by
  obtain ⟨tests, hperm, rfl⟩ := h
  obtain ⟨tests', hperm', rfl⟩ := h'
  exact ⟨tests', hperm.trans hperm', rfl⟩

end Schema.Shuffles

namespace Change

variable {c c' : Change} {m m' : Method} {s s' : Schema}

/-- A rule in place of an earlier one of its name. -/
def rule (rule : Rule) (message : Value) : Change :=
  { tests? := some (rule.name, [.of rule message]) }

/-- One more condition. -/
def condition (condition : Condition) : Change := { condition? := some condition }

/-- More fields, in place of earlier ones of their names. -/
def fields (fields : List (Value × Schema)) : Change := { fields? := some fields }

/-- The tests of a schema after a change. -/
def testsOf (c : Change) (tests : List Test) : List Test :=
  match c.tests? with
  | some (name, added) => tests.filter (·.name ≠ name) ++ added
  | none => tests

def applyTo (c : Change) (s : Schema) : Schema where
  kind := s.kind
  tests := c.testsOf s.tests
  conditions := s.conditions ++ c.condition?.toList
  isRequired := c.isRequired?.getD s.isRequired
  isNullable := c.isNullable?.getD s.isNullable
  default? := c.default?.or s.default?
  label := c.label?.getD s.label
  fields := Entries.putAll s.fields (c.fields?.getD [])

/-! ## What single changes do -/

theorem applyTo_empty (s : Schema) : ({} : Change).applyTo s = s := by
  cases s
  simp [applyTo, testsOf, Entries.putAll]

theorem applyTo_rule (rule : Rule) (message : Value) (s : Schema) :
    (Change.rule rule message).applyTo s = s.withRule rule message := by
  cases s
  simp [applyTo, testsOf, Change.rule, Entries.putAll, Schema.withRule, Schema.withTest, Test.of,
    Test.name]
  rfl

theorem applyTo_condition (condition : Condition) (s : Schema) :
    (Change.condition condition).applyTo s = s.whenSibling condition := by
  cases s
  simp [Change.condition, applyTo, testsOf, Entries.putAll, Schema.whenSibling]

theorem applyTo_fields (fields : List (Value × Schema)) (s : Schema) :
    (Change.fields fields).applyTo s = s.withFields fields := by
  cases s
  simp [Change.fields, applyTo, testsOf, Schema.withFields]

/-- That a change touches no part but that of a slot. -/
structure IsOf (slot : Method) (c : Change) : Prop where
  tests : ∀ p, c.tests? = some p → p.1 = slot.name ∧ ∀ t ∈ p.2, t.name = slot.name
  isRequired : c.isRequired?.isSome = true → slot = .required
  isNullable : c.isNullable?.isSome = true → slot = .nullable
  default : c.default?.isSome = true → slot = .default
  label : c.label?.isSome = true → slot = .label
  condition : c.condition?.isSome = true → slot = .when
  fields : c.fields?.isSome = true → slot = .shape

theorem isOf_empty (slot : Method) : ({} : Change).IsOf slot :=
  ⟨nofun, nofun, nofun, nofun, nofun, nofun, nofun⟩

theorem isOf_rule {rule : Rule} (hm : m ≠ .notRequired) (hname : rule.name = m.name)
    (message : Value) : (Change.rule rule message).IsOf m.slot where
  tests := by
    rintro _ ⟨⟩
    rw [Method.slot, if_neg hm, ← hname]
    exact ⟨rfl, List.forall_mem_singleton.2 rfl⟩
  isRequired := nofun
  isNullable := nofun
  default := nofun
  label := nofun
  condition := nofun
  fields := nofun

theorem isOf_condition (condition : Condition) : (Change.condition condition).IsOf .when :=
  { isOf_empty .when with condition := fun _ => rfl }

theorem isOf_fields (fields : List (Value × Schema)) : (Change.fields fields).IsOf .shape :=
  { isOf_empty .shape with fields := fun _ => rfl }

/-! ## Changes in another order -/

theorem testsOf_perm (c : Change) {tests tests' : List Test} (h : tests.Perm tests') :
    (c.testsOf tests).Perm (c.testsOf tests') := by
  unfold testsOf
  split
  · exact (h.filter _).append_right _
  · exact h

theorem shuffles_applyTo (c : Change) (h : s.Shuffles s') :
    (c.applyTo s).Shuffles (c.applyTo s') := by
  obtain ⟨tests, hperm, rfl⟩ := h
  exact ⟨_, c.testsOf_perm hperm, rfl⟩

/-- Two changes of one part are of one slot. -/
theorem isNone_or_isNone {α : Type} {x y : Option α} {slot slot' part : Method}
    (hx : x.isSome = true → slot = part) (hy : y.isSome = true → slot' = part)
    (hne : slot ≠ slot') : x = none ∨ y = none := by
  cases x with
  | none => exact .inl rfl
  | some a =>
    cases y with
    | none => exact .inr rfl
    | some b => exact absurd ((hx rfl).trans (hy rfl).symm) hne

theorem testsOf_testsOf_perm (hc : c.IsOf m) (hc' : c'.IsOf m') (hne : m ≠ m')
    (tests : List Test) : (c'.testsOf (c.testsOf tests)).Perm (c.testsOf (c'.testsOf tests)) := by
  unfold testsOf
  cases hx : c.tests? with
  | none => cases c'.tests? <;> exact .refl _
  | some p =>
    obtain ⟨name, added⟩ := p
    cases hx' : c'.tests? with
    | none => exact .refl _
    | some p' =>
      obtain ⟨name', added'⟩ := p'
      obtain ⟨rfl, hadded⟩ := hc.tests _ hx
      obtain ⟨rfl, hadded'⟩ := hc'.tests _ hx'
      have hname : m.name ≠ m'.name := fun h => hne (Method.name_injective h)
      -- neither change drops what the other one adds
      have hkeep : added.filter (·.name ≠ m'.name) = added :=
        List.filter_eq_self.2 fun t ht => by simp [hadded t ht, hname]
      have hkeep' : added'.filter (·.name ≠ m.name) = added' :=
        List.filter_eq_self.2 fun t ht => by simp [hadded' t ht, hname.symm]
      simp only [List.filter_append, hkeep, hkeep', List.append_assoc]
      rw [List.filter_comm]
      exact List.perm_append_comm.append_left _

/-- Changes of different slots can be made in either order. -/
theorem applyTo_applyTo_shuffles (hc : c.IsOf m) (hc' : c'.IsOf m') (hne : m ≠ m') (s : Schema) :
    (c'.applyTo (c.applyTo s)).Shuffles (c.applyTo (c'.applyTo s)) := by
  refine ⟨_, testsOf_testsOf_perm hc hc' hne s.tests, ?_⟩
  simp only [applyTo, Schema.mk.injEq, true_and]
  refine ⟨?_, ?_, ?_, ?_, ?_, ?_⟩
  · rcases isNone_or_isNone hc.condition hc'.condition hne with h | h <;> simp [h]
  · rcases isNone_or_isNone hc.isRequired hc'.isRequired hne with h | h <;> simp [h]
  · rcases isNone_or_isNone hc.isNullable hc'.isNullable hne with h | h <;> simp [h]
  · rcases isNone_or_isNone hc.default hc'.default hne with h | h <;> simp [h]
  · rcases isNone_or_isNone hc.label hc'.label hne with h | h <;> simp [h]
  · rcases isNone_or_isNone hc.fields hc'.fields hne with h | h <;> simp [h, Entries.putAll]

variable {changes changes' : List (Method × Change)}

/-- Makes changes one after another, each one given with its slot. -/
def applyAll (s : Schema) (changes : List (Method × Change)) : Schema :=
  changes.foldl (fun s p => p.2.applyTo s) s

/-- No change is one of the kind. -/
theorem kind_applyAll : ∀ (s : Schema) (changes : List (Method × Change)),
    (applyAll s changes).kind = s.kind
  | _, [] => rfl
  | s, p :: changes => kind_applyAll (p.2.applyTo s) changes

theorem shuffles_applyAll : ∀ (changes : List (Method × Change)) {s s' : Schema},
    s.Shuffles s' → (applyAll s changes).Shuffles (applyAll s' changes)
  | [], _, _, h => h
  | p :: changes, _, _, h => shuffles_applyAll changes (shuffles_applyTo p.2 h)

/-- Changes of slots that are all different can be made in any order. -/
theorem shuffles_applyAll_perm (hperm : changes.Perm changes')
    (hof : ∀ p ∈ changes, p.2.IsOf p.1) (hne : changes.Pairwise (·.1 ≠ ·.1)) (s : Schema) :
    (applyAll s changes).Shuffles (applyAll s changes') := by
  induction hperm generalizing s with
  | nil => exact .refl s
  | cons p _ ih =>
    exact ih (fun q hq => hof q (.tail _ hq)) (List.pairwise_cons.1 hne).2 (p.2.applyTo s)
  | swap p q changes =>
    have hqp : q.1 ≠ p.1 := (List.pairwise_cons.1 hne).1 p (.head _)
    exact shuffles_applyAll changes
      (applyTo_applyTo_shuffles (hof q (.head _)) (hof p (.tail _ (.head _))) hqp s)
  | trans hperm _ ih ih' =>
    exact (ih hof hne s).trans (ih' (fun p hp => hof p (hperm.mem_iff.2 hp))
      (hperm.pairwise hne fun h => h.symm) s)

end Change

end FieldSchema
