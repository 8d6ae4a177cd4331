import FieldSchema.Proofs.Reachable
import FieldSchema.Proofs.Selected
import FieldSchema.Schema.Casting

/-!
# The turns of conditional fields

When a record is cast, a conditional field has its turn after those without conditions and after
the conditional fields declared before it. Its branch is selected by the record as it is then,
where the fields still waiting are as they were given (`Schema.turnLookup`). So it is cast as the
finished record demands exactly if the two branches cast its value alike
(`Schema.cast_conditional_iff`), as they do where no waiting field is asked for
(`Schema.cast_conditional_of_settled`).
-/

namespace FieldSchema.Schema

/-! ## Selection by lookups -/

section Lookups

variable {lookup lookup' : Value → Option Value} {record : Entries Value} {s : Schema}

mutual

/-- The schema that the siblings found by a lookup select. -/
def selectBy (lookup : Value → Option Value) : Schema → Schema
  | ⟨kind, tests, conditions, isRequired, isNullable, default?, label, fields⟩ =>
    (selectLastBy? lookup conditions).getD
      ⟨kind, tests, conditions, isRequired, isNullable, default?, label, fields⟩
  termination_by structural s => s

def selectLastBy? (lookup : Value → Option Value) : List Condition → Option Schema
  | [] => none
  | ⟨sibling, expected, chosen, other⟩ :: rest =>
    match selectLastBy? lookup rest with
    | some s => some s
    | none =>
      some (if (lookup sibling).any (·.meets expected) then chosen.selectBy lookup
        else other.selectBy lookup)
  termination_by structural conditions => conditions

end

mutual

theorem select_eq_selectBy : ∀ s : Schema, s.select record = s.selectBy record.get?
  | ⟨_, _, conditions, _, _, _, _, _⟩ => by
    rw [select, selectBy, selectLast?_eq_selectLastBy? conditions]
  termination_by structural s => s

theorem selectLast?_eq_selectLastBy? : ∀ conditions : List Condition,
    selectLast? record conditions = selectLastBy? record.get? conditions
  | [] => rfl
  | ⟨sibling, expected, chosen, other⟩ :: rest => by
    have hholds : Condition.holds ⟨sibling, expected, chosen, other⟩ record =
        (record.get? sibling).any (·.meets expected) := by
      rw [Condition.holds]
      cases record.get? sibling <;> rfl
    rw [selectLast?, selectLastBy?, selectLast?_eq_selectLastBy? rest]
    cases selectLastBy? record.get? rest with
    | some s => rfl
    | none => simp only [hholds, select_eq_selectBy chosen, select_eq_selectBy other]
  termination_by structural conditions => conditions

end

/-- A sibling that a condition of a schema asks for, or one of its branches at any depth. -/
inductive DependsOn : Schema → Value → Prop
  | here {s : Schema} {c : Condition} (hc : c ∈ s.conditions) : DependsOn s c.sibling
  | chosen {s : Schema} {c : Condition} {k : Value} (hc : c ∈ s.conditions)
      (h : DependsOn c.chosen k) : DependsOn s k
  | other {s : Schema} {c : Condition} {k : Value} (hc : c ∈ s.conditions)
      (h : DependsOn c.other k) : DependsOn s k

/-- That the name of a field is read in a record, or a key that a condition of a field asks for. -/
def Reads (fields : List (Value × Schema)) (k : Value) : Prop :=
  ∃ e ∈ fields, e.1 = k ∨ e.2.DependsOn k

mutual

theorem selectBy_congr : ∀ s : Schema, (∀ k, s.DependsOn k → lookup k = lookup' k) →
    s.selectBy lookup = s.selectBy lookup'
  | ⟨_, _, conditions, _, _, _, _, _⟩, h => by
    rw [selectBy, selectBy, selectLastBy?_congr conditions
      (fun c hc => h c.sibling (.here hc)) (fun c hc k hk => h k (.chosen hc hk))
      fun c hc k hk => h k (.other hc hk)]
  termination_by structural s => s

theorem selectLastBy?_congr : ∀ conditions : List Condition,
    (∀ c ∈ conditions, lookup c.sibling = lookup' c.sibling) →
    (∀ c ∈ conditions, ∀ k, c.chosen.DependsOn k → lookup k = lookup' k) →
    (∀ c ∈ conditions, ∀ k, c.other.DependsOn k → lookup k = lookup' k) →
    selectLastBy? lookup conditions = selectLastBy? lookup' conditions
  | [], _, _, _ => rfl
  | ⟨sibling, expected, chosen, other⟩ :: rest, hs, hc, ho => by
    have hsibling : lookup sibling = lookup' sibling := hs _ List.mem_cons_self
    rw [selectLastBy?, selectLastBy?, hsibling,
      selectBy_congr chosen (hc _ List.mem_cons_self),
      selectBy_congr other (ho _ List.mem_cons_self),
      selectLastBy?_congr rest (fun c h => hs c (List.mem_cons_of_mem _ h))
        (fun c h => hc c (List.mem_cons_of_mem _ h))
        fun c h => ho c (List.mem_cons_of_mem _ h)]
  termination_by structural conditions => conditions

end

end Lookups

/-! ## Casting by the selected schema -/

section Casting

variable {record : Entries Value} {v : Value}

mutual

theorem castIn_eq : ∀ s : Schema, castIn record s v = (s.select record).cast v
  | ⟨kind, tests, conditions, isRequired, isNullable, default?, label, fields⟩ => by
    unfold castIn
    rw [select, castLast?_eq conditions]
    cases selectLast? record conditions with
    | none => cases v <;> rfl
    | some s => rfl
  termination_by structural s => s

theorem castLast?_eq : ∀ conditions : List Condition,
    castLast? record conditions v = (selectLast? record conditions).map (·.cast v)
  | [] => rfl
  | ⟨sibling, expected, chosen, other⟩ :: rest => by
    rw [castLast?, selectLast?, castLast?_eq rest, castIn_eq chosen, castIn_eq other]
    cases selectLast? record rest with
    | some s => rfl
    | none =>
      simp only [Option.map_none, Option.map_some]
      split <;> rfl
  termination_by structural conditions => conditions

end

/-- What a field has when its turn is over, given what it had before. -/
def fill (s : Schema) : Option Value → Option Value
  | some v => some (s.cast v)
  | none => s.default?

/-- The turn of one field. -/
def turn (record : Entries Value) (e : Value × Schema) : Entries Value :=
  match (e.2.select record).fill (record.get? e.1) with
  | some v => record.put e.1 v
  | none => record

/-- The fields in the order of their turns: those without conditions first. -/
def inTurn (fields : List (Value × Schema)) : List (Value × Schema) :=
  fields.filter (!·.2.isConditional) ++ fields.filter (·.2.isConditional)

theorem castFields_eq_foldl (conditional : Bool) : ∀ (fields : List (Value × Schema))
    (record : Entries Value), castFields conditional fields record =
      (fields.filter (·.2.isConditional = conditional)).foldl turn record
  | [], _ => rfl
  | (name, field) :: fields, record => by
    rw [castFields, castFields_eq_foldl conditional fields, List.filter_cons]
    by_cases hc : field.isConditional = conditional
    · simp only [hc, if_true, decide_true, List.foldl_cons, turn]
      cases record.get? name with
      | some v => simp only [castIn_eq, fill]
      | none => rfl
    · simp only [hc, if_false, decide_false, Bool.false_eq_true]

/-- A record is cast by the turns of its fields, one after another. -/
theorem castFields_castFields (fields : List (Value × Schema)) (record : Entries Value) :
    castFields true fields (castFields false fields record) =
      (inTurn fields).foldl turn record := by
  rw [castFields_eq_foldl, castFields_eq_foldl, inTurn, List.foldl_append]
  simp

theorem cast_record {s : Schema} (hkind : s.kind = .object) (record : Entries Value) :
    s.cast (.map record) = .map ((inTurn s.fields).foldl turn record) := by
  rw [cast, if_pos hkind, castFields_castFields]

end Casting

/-! ## What a turn leaves and what it changes -/

section Turns

variable {record : Entries Value} {e : Value × Schema} {k v : Value}
  {fields turns before after : List (Value × Schema)}

theorem mem_inTurn : e ∈ inTurn fields ↔ e ∈ fields := by
  cases h : e.2.isConditional <;> simp [inTurn, h]

theorem areKeys_inTurn (h : AreKeys (fields.map (·.1))) :
    AreKeys ((inTurn fields).map (·.1)) := by
  have hperm : (inTurn fields).Perm fields := by
    simpa [inTurn] using
      List.filter_append_perm (fun e : Value × Schema => !e.2.isConditional) fields
  exact h.perm (hperm.map _).symm

theorem get?_turn_of_not_same (hkey : e.1.isKey = true) (hk : k.same e.1 = false) :
    (turn record e).get? k = record.get? k := by
  unfold turn
  cases (e.2.select record).fill (record.get? e.1) with
  | none => rfl
  | some v => simp only [Entries.get?_put hkey, hk, Bool.false_eq_true, if_false]

theorem get?_turns_of_not_same : ∀ {turns : List (Value × Schema)} {record : Entries Value},
    (∀ e ∈ turns, e.1.isKey = true) → (∀ e ∈ turns, k.same e.1 = false) →
    Entries.get? (turns.foldl turn record) k = record.get? k
  | [], _, _, _ => rfl
  | e :: turns, record, hkeys, hk => by
    rw [List.foldl_cons, get?_turns_of_not_same
      (fun e' he' => hkeys e' (List.mem_cons_of_mem _ he'))
      fun e' he' => hk e' (List.mem_cons_of_mem _ he')]
    exact get?_turn_of_not_same (hkeys e List.mem_cons_self) (hk e List.mem_cons_self)

theorem get?_turn_self (hkey : e.1.isKey = true) (hself : e.1.same e.1 = true) :
    (turn record e).get? e.1 = (e.2.select record).fill (record.get? e.1) := by
  unfold turn
  cases hfill : (e.2.select record).fill (record.get? e.1) with
  | none =>
    cases hget : record.get? e.1 with
    | none => rfl
    | some v => simp [hget, fill] at hfill
  | some v => simp only [Entries.get?_put hkey, hself, if_true]

/-- A field has in the end what it has when its own turn is over. -/
theorem get?_turns_self (record : Entries Value)
    (h : AreKeys ((before ++ e :: after).map (·.1)))
    (hself : e.1.same e.1 = true) :
    Entries.get? ((before ++ e :: after).foldl turn record) e.1 =
      (e.2.select (before.foldl turn record)).fill (record.get? e.1) := by
  have hkeys : ∀ e' ∈ before ++ e :: after, e'.1.isKey = true := fun e' he' =>
    h.isKey _ (List.mem_map_of_mem he')
  have hothers := h.not_same_of_others hself
  rw [List.foldl_append, List.foldl_cons,
    get?_turns_of_not_same (fun e' he' => hkeys e' (by simp [he']))
      fun e' he' => hothers e' (List.mem_append_right _ he'),
    get?_turn_self (hkeys e (by simp)) hself,
    get?_turns_of_not_same (fun e' he' => hkeys e' (by simp [he']))
      fun e' he' => hothers e' (List.mem_append_left _ he')]

/-- A turn after which the field has what it had before changes nothing. -/
theorem turn_eq_self (h : (e.2.select record).fill (record.get? e.1) = record.get? e.1) :
    turn record e = record := by
  unfold turn
  rw [h]
  cases hget : record.get? e.1 with
  | none => rfl
  | some v => exact Entries.put_of_get? hget

/-- A turn changes nothing exactly if the field has afterwards what it had before. -/
theorem turn_eq_self_iff (hkey : e.1.isKey = true) : turn record e = record ↔
    (e.2.select record).fill (record.get? e.1) = record.get? e.1 := by
  refine ⟨fun hturn => ?_, turn_eq_self⟩
  unfold turn at hturn
  cases hfill : (e.2.select record).fill (record.get? e.1) with
  | none =>
    cases hget : record.get? e.1 with
    | none => rfl
    | some v => simp [hget, fill] at hfill
  | some v =>
    have hput : record.put e.1 v = record := by rwa [hfill] at hturn
    cases hget : record.get? e.1 with
    | some u =>
      have hself := Entries.same_self_of_get? hkey hget
      have hput' : (record.put e.1 v).get? e.1 = record.get? e.1 := by rw [hput]
      rwa [Entries.get?_put hkey, if_pos hself, hget] at hput'
    | none =>
      have hlength := congrArg List.length hput
      rw [Entries.length_put, if_neg (by simp [Entries.has, hget])] at hlength
      omega

/-- Whether a name is that of a conditional field whose turn is not before that of another. -/
def isWaiting (fields : List (Value × Schema)) (name k : Value) : Bool :=
  (fields.dropWhile fun e => !name.same e.1).any fun e => e.2.isConditional && k.same e.1

/-- What a field finds under a name at its turn: as it was given where that field is waiting, else
as it is in the end. -/
def turnLookup (fields : List (Value × Schema)) (name : Value) (given cast : Entries Value)
    (k : Value) : Option Value :=
  if isWaiting fields name k then given.get? k else cast.get? k

variable {s field : Schema} {name : Value}

theorem dropWhile_eq_of_areKeys (h : AreKeys ((before ++ (name, field) :: after).map (·.1)))
    (hself : name.same name = true) :
    ((before ++ (name, field) :: after).dropWhile fun e => !name.same e.1) =
      (name, field) :: after := by
  have hbefore : ∀ e ∈ before, (!name.same e.1) = true := fun e he => by
    simp [h.not_same_of_append he List.mem_cons_self hself]
  rw [List.dropWhile_append_of_pos hbefore, List.dropWhile_cons_of_neg (by simp [hself])]

/-- A field has its turn among those of the others, a conditional one before the conditional fields
that are declared after it. -/
theorem exists_inTurn_eq (before after : List (Value × Schema)) (e : Value × Schema) :
    ∃ earlier later, inTurn (before ++ e :: after) = earlier ++ e :: later ∧
      earlier ++ later = inTurn (before ++ after) ∧
      (e.2.isConditional = true → later = after.filter (·.2.isConditional)) := by
  cases hc : e.2.isConditional with
  | false =>
    refine ⟨before.filter (!·.2.isConditional), after.filter (!·.2.isConditional) ++
      (before ++ after).filter (·.2.isConditional), ?_, ?_,
      fun h => absurd h Bool.false_ne_true⟩ <;>
      simp [inTurn, hc]
  | true =>
    refine ⟨(before ++ after).filter (!·.2.isConditional) ++ before.filter (·.2.isConditional),
      after.filter (·.2.isConditional), ?_, ?_, fun _ => rfl⟩ <;>
      simp [inTurn, hc]

/-- At its turn a conditional field finds the waiting fields as given and the others as they stay.
-/
theorem get?_turns {earlier : List (Value × Schema)} (h : AreKeys (fields.map (·.1)))
    (hfields : fields = before ++ (name, field) :: after) (hc : field.isConditional = true)
    (hinTurn : inTurn fields = earlier ++ (name, field) :: after.filter (·.2.isConditional))
    (hself : name.same name = true) (k : Value) :
    Entries.get? (earlier.foldl turn record) k =
      turnLookup fields name record ((inTurn fields).foldl turn record) k := by
  have hturns := areKeys_inTurn h
  rw [hinTurn] at hturns
  have hkeys : ∀ e ∈ earlier ++ (name, field) :: after.filter (·.2.isConditional),
      e.1.isKey = true := fun e he => hturns.isKey _ (List.mem_map_of_mem he)
  have hwaiting : isWaiting fields name k = true ↔
      ∃ e ∈ (name, field) :: after.filter (·.2.isConditional), k.same e.1 = true := by
    rw [isWaiting, hfields, dropWhile_eq_of_areKeys (hfields ▸ h) hself]
    simp [hc, and_assoc]
  unfold turnLookup
  split_ifs with hw
  -- no turn before that of the field is one of a field still waiting
  · obtain ⟨e, he, hke⟩ := hwaiting.1 hw
    exact get?_turns_of_not_same (fun e' he' => hkeys e' (List.mem_append_left _ he'))
      fun e' he' => hturns.not_same_of_append he' he hke
  -- and no later turn touches a field that is not
  · rw [hinTurn, List.foldl_append, get?_turns_of_not_same fun e' he' =>
      hkeys e' (List.mem_append_right _ he')]
    intro e he
    cases hke : k.same e.1 with
    | false => rfl
    | true => exact absurd (hwaiting.2 ⟨e, he, hke⟩) hw

/-- A field without conditions gets what its schema makes of what is given. -/
theorem get?_castFields_of_not_conditional (record : Entries Value)
    (h : AreKeys (fields.map (·.1)))
    (he : (name, field) ∈ fields) (hc : field.isConditional = false)
    (hself : name.same name = true) :
    Entries.get? (castFields true fields (castFields false fields record)) name =
      field.fill (record.get? name) := by
  obtain ⟨before, after, hinTurn⟩ := List.append_of_mem (mem_inTurn.2 he)
  have hturns := areKeys_inTurn h
  rw [hinTurn] at hturns
  rw [castFields_castFields, hinTurn, get?_turns_self record hturns hself, select_eq_self hc]

/-- A conditional field gets what the branch that its siblings select at its turn makes of what is
given. -/
theorem get?_castFields (record : Entries Value) (h : AreKeys (fields.map (·.1)))
    (he : (name, field) ∈ fields) (hc : field.isConditional = true)
    (hself : name.same name = true) :
    Entries.get? (castFields true fields (castFields false fields record)) name =
      (field.selectBy (turnLookup fields name record
        (castFields true fields (castFields false fields record)))).fill (record.get? name) := by
  obtain ⟨before, after, hfields⟩ := List.append_of_mem he
  obtain ⟨earlier, later, hinTurn, -, hlater⟩ := exists_inTurn_eq before after (name, field)
  rw [← hfields, hlater hc] at hinTurn
  have hturns := areKeys_inTurn h
  rw [hinTurn] at hturns
  have hget := get?_turns_self record hturns hself
  rw [← hinTurn, select_eq_selectBy,
    selectBy_congr field fun k _ => get?_turns h hfields hc hinTurn hself k] at hget
  rw [castFields_castFields]
  exact hget

theorem cast_map (h : s.IsSound) (he : (name, field) ∈ s.fields) :
    s.cast (.map record) = .map (castFields true s.fields (castFields false s.fields record)) := by
  have ho : s.kind = .object := by
    by_contra hne
    simp [h.fields_eq_nil hne] at he
  rw [cast, if_pos ho]

/-- A conditional field of a record is cast by the branch that the fields select at its turn, some
of them still as they were given. That is as the cast record demands exactly if the two branches
cast its value alike. -/
theorem cast_conditional_iff (h : s.Reachable) (he : (name, field) ∈ s.fields)
    (hc : field.isConditional = true) (hv : record.get? name = some v) :
    ∃ r : Entries Value, s.cast (.map record) = .map r ∧
      r.get? name = some ((field.selectBy (turnLookup s.fields name record r)).cast v) ∧
      (r.get? name = some ((field.select r).cast v) ↔
        (field.selectBy (turnLookup s.fields name record r)).cast v = (field.select r).cast v) := by
  have hself := Entries.same_self_of_get? (h.isSound.areKeys.isKey _ (List.mem_map_of_mem he)) hv
  have hget := get?_castFields record h.isSound.areKeys he hc hself
  rw [hv] at hget
  refine ⟨_, cast_map h.isSound he, hget, ?_⟩
  rw [hget, fill, Option.some.injEq]

/-- The text or number of one field depends on that of a field whose turn is later. -/
def tangledField (sibling expected : Value) : Schema :=
  (Schema.ofKind .mixed).whenSibling ⟨sibling, expected, .ofKind .string, .ofKind .number⟩

def tangled : Schema :=
  (Schema.ofKind .object).withFields
    [(.text "a", .ofKind .number), (.text "b", tangledField (.text "c") (.text "1")),
      (.text "c", tangledField (.text "a") (.int 1))]

def tangledRecord : Entries Value :=
  [(.text "a", .int 1), (.text "b", .int 5), (.text "c", .int 1)]

theorem reachable_tangled : tangled.Reachable := by
  have hfield : ∀ sibling expected, sibling.isKey = true →
      (tangledField sibling expected).Reachable := fun sibling expected hkey =>
    .whenSibling (.ofKind .mixed) hkey (.ofKind .string) (.ofKind .number)
  refine .withFields (.ofKind .object) rfl (by simp [Value.isKey]) ?_
  simp only [List.forall_mem_cons, List.not_mem_nil, false_implies, implies_true, and_true]
  exact ⟨.ofKind .number, hfield _ _ rfl, hfield _ _ rfl⟩

theorem cast_tangled : tangled.cast (.map tangledRecord) =
    .map [(.text "a", .int 1), (.text "b", .int 5), (.text "c", .text "1")] :=
  rfl

theorem cast_conditional_iff_at_tangled :
    ∃ r : Entries Value, tangled.cast (.map tangledRecord) = .map r ∧
      r.get? (.text "b") = some (((tangledField (.text "c") (.text "1")).selectBy
        (turnLookup tangled.fields (.text "b") tangledRecord r)).cast (.int 5)) ∧
      (r.get? (.text "b") =
          some (((tangledField (.text "c") (.text "1")).select r).cast (.int 5)) ↔
        ((tangledField (.text "c") (.text "1")).selectBy
            (turnLookup tangled.fields (.text "b") tangledRecord r)).cast (.int 5) =
          ((tangledField (.text "c") (.text "1")).select r).cast (.int 5)) :=
  cast_conditional_iff reachable_tangled (.tail _ (.head _)) rfl rfl

theorem get?_cast_tangled_ne :
    ∃ r : Entries Value, tangled.cast (.map tangledRecord) = .map r ∧
      r.get? (.text "b") = some (.int 5) ∧
      ((tangledField (.text "c") (.text "1")).select r).cast (.int 5) = .text "5" :=
  ⟨_, cast_tangled, rfl, rfl⟩

/-- Where no sibling that a field depends on has its turn later, the branch is the one that the cast
record selects. -/
theorem cast_conditional_of_settled (h : s.Reachable) (he : (name, field) ∈ s.fields)
    (hc : field.isConditional = true) (hv : record.get? name = some v)
    (hsettled : ∀ k, field.DependsOn k → isWaiting s.fields name k = false) :
    ∃ r : Entries Value, s.cast (.map record) = .map r ∧
      r.get? name = some ((field.select r).cast v) := by
  have hself := Entries.same_self_of_get? (h.isSound.areKeys.isKey _ (List.mem_map_of_mem he)) hv
  refine ⟨_, cast_map h.isSound he, ?_⟩
  rw [get?_castFields record h.isSound.areKeys he hc hself, hv, fill, select_eq_selectBy]
  congr 2
  refine selectBy_congr field fun k hk => ?_
  rw [turnLookup, hsettled k hk]
  rfl

end Turns

end FieldSchema.Schema
