import FieldSchema.Proofs.Reachable
import FieldSchema.Proofs.Results
import FieldSchema.Proofs.Selected

/-!
# Rounds of selection

Selection goes on in rounds. A round puts the conditions of a schema to the question, one after the
other, and leaves the branch of the last one; where there are no conditions the schema stays. Each
round leads to a schema with branches less deeply nested (`nesting_lt`), so there are at most as
many rounds as that, and they come to what selection comes to (`rounds_eq`). For a record that is
the one schema without conditions that the last conditions lead to, level by level (`leadsTo_iff`).
-/

namespace FieldSchema

/-- The branch of a condition for a value in the place of a record. -/
def Condition.branchFor (c : Condition) (parent : Value) : Except Misuse Schema := do
  if ← c.holdsFor parent then pure c.chosen else pure c.other

/-- The branch of a condition that is selected for a record. -/
def Condition.selected (c : Condition) (record : Entries Value) : Schema :=
  if c.holds record then c.chosen else c.other

namespace Schema

mutual

/-- How deep the branches of conditions are nested in a schema. -/
def nesting : Schema → Nat
  | ⟨_, _, conditions, _, _, _, _, _⟩ => nestingOf conditions
  termination_by structural s => s

def nestingOf : List Condition → Nat
  | [] => 0
  | ⟨_, _, chosen, other⟩ :: rest => max (max chosen.nesting other.nesting + 1) (nestingOf rest)
  termination_by structural conditions => conditions

end

/-- One round: the branch of the last condition, none if there are no conditions. All conditions are
put to the question. -/
def round (parent : Value) (s : Schema) : Except Misuse (Option Schema) :=
  s.conditions.foldlM (fun _ c => some <$> c.branchFor parent) none

/-- The schema that at most `n` rounds end at, none if they have to go on. -/
def rounds (parent : Value) : (n : Nat) → Schema → Except Misuse (Option Schema)
  | 0, s => .ok (if s.isConditional then none else some s)
  | n + 1, s => do
    match ← s.round parent with
    | some t => rounds parent n t
    | none => pure (some s)

/-- That the last conditions lead from a schema to one without any, level by level, for a record. -/
inductive LeadsTo (record : Entries Value) : Schema → Schema → Prop
  | leaf {s : Schema} (h : s.conditions = []) : LeadsTo record s s
  | branch {s t : Schema} {conditions : List Condition} {c : Condition}
      (h : s.conditions = conditions ++ [c]) (hrest : LeadsTo record (c.selected record) t) :
      LeadsTo record s t

/-- That records can be asked for the siblings that the conditions of a schema name, and those of
its branches. -/
inductive AsksForKeys : Schema → Prop
  | intro {s : Schema} (siblings : ∀ c ∈ s.conditions, c.sibling.isKey = true)
      (chosen : ∀ c ∈ s.conditions, AsksForKeys c.chosen)
      (other : ∀ c ∈ s.conditions, AsksForKeys c.other) : AsksForKeys s

variable {parent : Value} {record : Entries Value} {s t : Schema} {c : Condition}
  {conditions : List Condition}

/-! ## One round -/

theorem isConditional_eq_false : s.isConditional = false ↔ s.conditions = [] := by
  simp [isConditional]

theorem nesting_lt_nestingOf : ∀ {conditions : List Condition}, c ∈ conditions →
    c.chosen.nesting < nestingOf conditions ∧ c.other.nesting < nestingOf conditions
  | [], h => absurd h List.not_mem_nil
  | ⟨sibling, expected, chosen, other⟩ :: rest, h => by
    rw [nestingOf]
    rcases List.mem_cons.1 h with rfl | h
    · show chosen.nesting < _ ∧ other.nesting < _
      omega
    · have ih := nesting_lt_nestingOf h
      omega

/-- The branches of a schema are less deeply nested than the schema. -/
theorem nesting_lt (h : c ∈ s.conditions) :
    c.chosen.nesting < s.nesting ∧ c.other.nesting < s.nesting := by
  obtain ⟨kind, tests, conditions, isRequired, isNullable, default?, label, fields⟩ := s
  exact nesting_lt_nestingOf h

theorem round_of_nil (h : s.conditions = []) : s.round parent = .ok none := by
  rw [round, h]
  rfl

theorem round_of_append (h : s.conditions = conditions ++ [c]) : s.round parent =
    (conditions.foldlM (fun _ c => some <$> c.branchFor parent) none :
      Except Misuse (Option Schema))
      >>= fun _ => some <$> c.branchFor parent := by
  rw [round, h, List.foldlM_append]
  simp only [List.foldlM_cons, List.foldlM_nil, bind_pure]

theorem exists_of_branchFor_eq_ok (h : c.branchFor parent = .ok t) :
    t = c.chosen ∨ t = c.other := by
  unfold Condition.branchFor at h
  obtain ⟨holds, -, h⟩ := Except.exists_of_bind_eq_ok h
  cases holds
  · exact .inr (Except.ok.inj h).symm
  · exact .inl (Except.ok.inj h).symm

/-- A round leads to a schema with branches less deeply nested. -/
theorem nesting_of_round (h : s.round parent = .ok (some t)) : t.nesting < s.nesting := by
  rcases List.eq_nil_or_concat s.conditions with hnil | ⟨conditions, c, hlast⟩
  · rw [round_of_nil hnil] at h
    cases h
  · rw [List.concat_eq_append] at hlast
    rw [round_of_append hlast] at h
    obtain ⟨_, -, h⟩ := Except.exists_of_bind_eq_ok h
    obtain ⟨u, hu, heq⟩ := Except.exists_of_map_eq_ok h
    obtain rfl := Option.some.inj heq
    have hlt := nesting_lt (s := s) (c := c) (by simp [hlast])
    rcases exists_of_branchFor_eq_ok hu with rfl | rfl
    · exact hlt.1
    · exact hlt.2

/-! ## Rounds and selection -/

/-- The first round over, selection goes on from the branch that it leaves. -/
theorem selectLastFor_eq (parent : Value) : ∀ conditions : List Condition,
    selectLastFor parent conditions =
      (conditions.foldlM (fun _ c => some <$> c.branchFor parent) none :
        Except Misuse (Option Schema)) >>= fun
      | some t => some <$> t.selectFor parent
      | none => pure none
  | [] => rfl
  | ⟨sibling, expected, chosen, other⟩ :: rest => by
    rw [selectLastFor, List.foldlM_cons, Condition.branchFor]
    cases Condition.holdsFor ⟨sibling, expected, chosen, other⟩ parent with
    | error m => rfl
    | ok holds =>
      rcases rest with _ | ⟨c, rest⟩
      · cases holds <;> rfl
      · cases holds <;> exact selectLastFor_eq parent (c :: rest)

theorem selectFor_eq (parent : Value) (s : Schema) : s.selectFor parent =
    s.round parent >>= fun
      | some t => t.selectFor parent
      | none => pure s := by
  obtain ⟨kind, tests, conditions, isRequired, isNullable, default?, label, fields⟩ := s
  rw [selectFor, selectLastFor_eq, round]
  cases (conditions.foldlM (fun _ c => some <$> c.branchFor parent) none :
      Except Misuse (Option Schema)) with
  | error m => rfl
  | ok left =>
    cases left with
    | none => rfl
    | some t =>
      show (some <$> t.selectFor parent) >>= _ = t.selectFor parent
      cases t.selectFor parent <;> rfl

theorem selectFor_of_nil (h : s.conditions = []) : s.selectFor parent = .ok s := by
  rw [selectFor_eq, round_of_nil h]
  rfl

/-- As many rounds as branches are nested are enough. -/
theorem rounds_eq {n : Nat} (h : s.nesting ≤ n) :
    s.rounds parent n = some <$> s.selectFor parent := by
  induction n generalizing s with
  | zero =>
    have hnil : s.conditions = [] := List.eq_nil_iff_forall_not_mem.2 fun c hc => by
      have := (nesting_lt hc).1
      omega
    rw [rounds, isConditional_eq_false.2 hnil, selectFor_of_nil hnil]
    rfl
  | succ n ih =>
    rw [rounds, selectFor_eq]
    cases hround : s.round parent with
    | error m => rfl
    | ok left =>
      cases left with
      | none => rfl
      | some t =>
        have hlt := nesting_of_round hround
        exact ih (by omega)

/-! ## Records -/

theorem branchFor_record (h : c.sibling.isKey = true) :
    c.branchFor (.map record) = .ok (c.selected record) := by
  rw [Condition.branchFor, Condition.holdsFor, if_pos h, Condition.selected]
  cases c.holds record <;> rfl

theorem select_of_last (h : s.conditions = conditions ++ [c]) :
    s.select record = (c.selected record).select record := by
  rw [select_of_append h, Condition.selected]
  split <;> rfl

theorem LeadsTo.conditions_eq_nil (h : s.LeadsTo record t) : t.conditions = [] := by
  induction h with
  | leaf h => exact h
  | branch _ _ ih => exact ih

/-- What is selected is what the last conditions lead to, and nothing else. -/
theorem leadsTo_iff : s.LeadsTo record t ↔ t = s.select record := by
  constructor
  · intro h
    induction h with
    | leaf h => exact (select_eq_self (isConditional_eq_false.2 h)).symm
    | branch h _ ih => rw [ih, select_of_last h]
  · rintro rfl
    induction s using Schema.induct with
    | step s _ hconditions =>
      rcases List.eq_nil_or_concat s.conditions with hnil | ⟨conditions, c, hlast⟩
      · rw [select_eq_self (isConditional_eq_false.2 hnil)]
        exact .leaf hnil
      · rw [List.concat_eq_append] at hlast
        rw [select_of_last hlast]
        obtain ⟨hchosen, hother⟩ := hconditions c (by simp [hlast])
        refine .branch hlast ?_
        rw [Condition.selected]
        split
        · exact hchosen
        · exact hother

theorem conditions_select : (s.select record).conditions = [] :=
  (leadsTo_iff.2 rfl).conditions_eq_nil

theorem AsksForKeys.selected (h : s.AsksForKeys) (hc : c ∈ s.conditions) :
    (c.selected record).AsksForKeys := by
  cases h with
  | intro _ chosen other =>
    rw [Condition.selected]
    split
    · exact chosen c hc
    · exact other c hc

theorem AsksForKeys.isKey (h : s.AsksForKeys) (hc : c ∈ s.conditions) :
    c.sibling.isKey = true := by
  cases h with
  | intro siblings _ _ => exact siblings c hc

theorem Everywhere.asksForKeys (h : s.Everywhere IsSound) : s.AsksForKeys := by
  induction h with
  | intro hsound _ _ _ _ hchosen hother => exact .intro hsound.sibling_isKey hchosen hother

/-- Schemas that methods lead to ask for names that can be keys. -/
theorem Reachable.asksForKeys (h : s.Reachable) : s.AsksForKeys :=
  h.everywhere_isSound.asksForKeys

/-- In a record the question has an answer where the siblings can be keys. -/
theorem AsksForKeys.round_record (h : s.AsksForKeys) :
    s.round (.map record) = .ok (s.conditions.getLast?.map (·.selected record)) := by
  have hfold : ∀ (l : List Condition) (o : Option Schema), (∀ c ∈ l, c.sibling.isKey = true) →
      (l.foldlM (fun _ c => some <$> c.branchFor (.map record)) o : Except Misuse (Option Schema)) =
        .ok ((l.getLast?.map (·.selected record)).or o) := by
    intro l
    induction l with
    | nil => exact fun _ _ => rfl
    | cons c l ih =>
      intro o hl
      obtain ⟨hc, hl⟩ := List.forall_mem_cons.1 hl
      rw [List.foldlM_cons, branchFor_record hc]
      refine (ih (some (c.selected record)) hl).trans ?_
      cases l <;> simp [List.getLast?_cons]
  rw [round, hfold _ _ fun _ hc => h.isKey hc, Option.or_none]

theorem AsksForKeys.selectFor_record (h : s.AsksForKeys) :
    s.selectFor (.map record) = .ok (s.select record) := by
  induction s using Schema.induct with
  | step s _ hconditions =>
    rw [selectFor_eq, h.round_record]
    rcases List.eq_nil_or_concat s.conditions with hnil | ⟨conditions, c, hlast⟩
    · rw [hnil, select_eq_self (isConditional_eq_false.2 hnil)]
      rfl
    · rw [List.concat_eq_append] at hlast
      have hc : c ∈ s.conditions := by simp [hlast]
      have hbranch : (c.selected record).AsksForKeys := h.selected hc
      rw [select_of_last hlast, hlast, List.getLast?_concat]
      show (c.selected record).selectFor (.map record) = _
      rw [Condition.selected] at hbranch ⊢
      split at hbranch
      · rename_i hholds
        rw [if_pos hholds]
        exact (hconditions c hc).1 hbranch
      · rename_i hholds
        rw [if_neg hholds]
        exact (hconditions c hc).2 hbranch

/-- The rounds for a record are over when there were as many as branches are nested, whatever the
conditions name. Where the siblings can be keys they end at a schema: that without conditions which
the last conditions lead to, level by level, and from which selection does not go on. -/
theorem selection_ends (s : Schema) (record : Entries Value) :
    (∀ n, s.nesting ≤ n →
      s.rounds (.map record) n = some <$> s.selectFor (.map record)) ∧
    (s.AsksForKeys → s.selectFor (.map record) = .ok (s.select record)) ∧
    (s.select record).conditions = [] ∧
    (∀ t, s.LeadsTo record t ↔ t = s.select record) ∧
    (s.select record).selectFor (.map record) = .ok (s.select record) :=
  ⟨fun _ => rounds_eq, AsksForKeys.selectFor_record, conditions_select, fun _ => leadsTo_iff,
    selectFor_of_nil conditions_select⟩

/-- A choice by `b` within a choice by `a`. -/
def chosenTwice : Schema :=
  (ofKind .mixed).whenSibling ⟨.text "a", .int 1,
    (ofKind .number).whenSibling ⟨.text "b", .bool true, ofKind .string, ofKind .boolean⟩,
    ofKind .date⟩

theorem reachable_chosenTwice : chosenTwice.Reachable :=
  .whenSibling (.ofKind _) rfl (.whenSibling (.ofKind _) rfl (.ofKind _) (.ofKind _)) (.ofKind _)

/-- One round does not end there, and the two that it may take do: the truth value is not taken for
the number. -/
theorem selection_ends_chosenTwice :
    chosenTwice.rounds (.map [(.text "a", .int 1), (.text "b", .int 1)]) 1 = .ok none ∧
      chosenTwice.rounds (.map [(.text "a", .int 1), (.text "b", .int 1)]) 2 =
        .ok (some (ofKind .boolean)) := by
  obtain ⟨hrounds, hselect, -⟩ :=
    chosenTwice.selection_ends [(.text "a", .int 1), (.text "b", .int 1)]
  refine ⟨rfl, ?_⟩
  rw [hrounds 2 (by decide), hselect reachable_chosenTwice.asksForKeys]
  rfl

end Schema

end FieldSchema
